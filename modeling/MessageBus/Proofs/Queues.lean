import MessageBus.Proofs.Seats

/-!
# First come, first served

Those who wait in one line of a channel form one queue (`Executor.Queues`): first the ones who were
called and are about to go on, in the order of the ready list, then the ones who stand in line.
Whoever acts on the channel without a place in the line calls the next ones, and the queue stays as
it is (`Queues.goOn`). The queue moves on at its front, when a call goes on: it leaves, or, if it
cannot go ahead, it parks at the end (`Queues.movesOn`).
-/

namespace MessageBus

namespace Executor

variable {u : Usage} {x y : Executor} {b b' : Nat} {a : Address} {side : Side} {s : Seat}
  {called queued : List Seat} {errand : Option (Nat × Errand Waker)} {e : Errand Waker}
  {o : Outcome (Registry Waker) Waker Upshot} {c d : Channel Waker} {p : Place} {k w : Waker}
  {rest : List Frame}

/-- The waker of an entry is one of the task that holds the place. -/
theorem Reachable.wakers (reachable : x.Reachable u) :
    ∀ b p k, (p, k) ∈ (x.registry b).waiting → (b, p) ∈ x.placesOf k.task := by
  obtain ⟨inline, run⟩ := reachable
  induction run with
  | refl => exact (attentive_new inline).wakers
  | @tail y z run next ih =>
    have sound := Reachable.sound ⟨inline, run⟩
    have sound' := (next.sound sound).1
    cases next with
    | step => exact sound.trades_step.wakers sound sound' ih
    | ask idle lawful => exact (sound.cleared.trades_ask idle lawful).wakers sound.cleared sound' ih

/-- Among seats in one line, the one with the ticket of a place has this place. -/
theorem exists_seat {seats : List Seat} (fits : ∀ s ∈ seats, s.place.isAt a side = true)
    (here : p.isAt a side = true) (ticket : p.ticket ∈ seats.map (·.place.ticket)) :
    ∃ s ∈ seats, s.place = p := by
  obtain ⟨s, member, same⟩ := List.mem_map.1 ticket
  obtain ⟨address, on⟩ := Place.isAt_iff.1 (fits s member)
  obtain ⟨address', on'⟩ := Place.isAt_iff.1 here
  refine ⟨s, member, ?_⟩
  rw [Place.mk.injEq]
  exact ⟨address.trans address'.symm, on.trans on'.symm, same⟩

/-- Those who wait in one line of a channel, in the order in which they go on: first the ones who
were called, then the ones who stand in line. Nobody else has a place there. -/
structure Queues (x : Executor) (b : Nat) (a : Address) (side : Side) (called queued : List Seat) :
    Prop where
  seated : ∀ s ∈ called ++ queued, ∃ task, x.Occupies b s task
  fits : ∀ s ∈ called ++ queued, s.place.isAt a side = true
  apart : ((called ++ queued).map (·.task)).Nodup
  next : x.upcoming.filter (· ∈ (called ++ queued).map (·.task)) = called.map (·.task)
  line : ∃ c, (x.registry b).find? a = some c ∧ c.tickets side = queued.map (·.place.ticket)
  held : ∀ p ∈ x.held b, p.isAt a side = true → ∃ s ∈ called ++ queued, s.place = p

namespace Queues

variable (queues : x.Queues b a side called queued)

include queues

theorem holds (member : s ∈ called ++ queued) : s.place ∈ x.held b := by
  obtain ⟨task, occupies⟩ := queues.seated s member
  refine mem_held_iff.2 ⟨s.task, ?_⟩
  rw [occupies.placesOf]
  exact List.mem_cons_self

/-- Seats with one ticket have one place. -/
theorem place_eq (sound : x.Sound u) {s' : Seat} (member : s ∈ called ++ queued)
    (member' : s' ∈ called ++ queued) (same : s'.place.ticket = s.place.ticket) :
    s'.place = s.place := sound.place_eq (queues.holds member) (queues.holds member') same

theorem size_line (found : (x.registry b).find? a = some c) :
    (c.line side).size = queued.length := by
  obtain ⟨c', there, tickets⟩ := queues.line
  cases found.symm.trans there
  have lengths := congrArg List.length tickets
  rwa [Channel.tickets, WaitLine.length_tickets, List.length_map] at lengths

theorem seat_eq {s' : Seat} (member : s ∈ called ++ queued) (member' : s' ∈ called ++ queued)
    (same : s'.task = s.task) : s' = s := List.inj_on_of_nodup_map queues.apart member' member same

/-- Who is woken of those in the queue stood in line and does not any more. -/
theorem leaving_of_woken
    (wakers : ∀ b p k, (p, k) ∈ (x.registry b).waiting → (b, p) ∈ x.placesOf k.task)
    (carried : x.carried b' e = some o) (entry : (p, k) ∈ (x.registry b').leaving o.state)
    (own : k.task ∈ (called ++ queued).map (·.task)) :
    b' = b ∧ ∃ s ∈ called ++ queued, s.task = k.task ∧ s.place = p := by
  obtain ⟨s, member, same⟩ := List.mem_map.1 own
  obtain ⟨task, occupies⟩ := queues.seated s member
  have holds := wakers b' p k (List.mem_filter.1 entry).1
  rw [← same, occupies.placesOf, List.mem_singleton] at holds
  cases holds
  exact ⟨rfl, s, member, same, rfl⟩

theorem woken_elsewhere (sound : x.Sound u)
    (wakers : ∀ b p k, (p, k) ∈ (x.registry b).waiting → (b, p) ∈ x.placesOf k.task)
    (carried : x.carried b' e = some o) (other : b' ≠ b) :
    (o.woken.map (·.task)).filter (· ∈ (called ++ queued).map (·.task)) = [] := by
  refine List.filter_eq_nil_iff.2 fun t member => ?_
  obtain ⟨k, woken, rfl⟩ := List.mem_map.1 member
  rw [decide_eq_true_iff]
  intro own
  have wakes := e.wakes_leaving (sound.balanced b') (effect_of_carried carried)
  obtain ⟨⟨p, k'⟩, entry, rfl⟩ := List.mem_map.1 (wakes.mem_iff.2 woken)
  exact other (queues.leaving_of_woken wakers carried (List.mem_filter.1 entry).1 own).1

/-- The entry of a call that stands in the line has a waker of its task. -/
theorem task_of_waiter (sound : x.Sound u)
    (wakers : ∀ b p k, (p, k) ∈ (x.registry b).waiting → (b, p) ∈ x.placesOf k.task)
    (found : (x.registry b).find? a = some c) (member : s ∈ called ++ queued)
    {entry : Waiter Waker} (stands : entry ∈ (c.line side).waiters)
    (same : s.place.ticket = entry.ticket) : entry.waker.task = s.task := by
  obtain ⟨rfl, rfl⟩ := Place.isAt_iff.1 (queues.fits s member)
  have entry : (s.place, entry.waker) ∈ (x.registry b).waiting := by
    refine Registry.mem_waiting_iff.2 ⟨c, found, ?_⟩
    rw [same]
    exact stands
  obtain ⟨task, occupies⟩ := queues.seated s member
  refine sound.holder_eq ?_ (wakers _ _ _ entry)
  rw [occupies.placesOf]
  exact List.mem_cons_self

/-- Of those in the queue no more are woken than leave the line: whoever is woken leaves it. -/
theorem length_woken_le (sound : x.Sound u)
    (wakers : ∀ b p k, (p, k) ∈ (x.registry b).waiting → (b, p) ∈ x.placesOf k.task)
    (carried : x.carried b e = some o) (found : (x.registry b).find? a = some c)
    (found' : o.state.find? a = some d) {popped stay : List (Waiter Waker)} {woken : List Seat}
    (left : (c.line side).waiters = popped ++ stay)
    (stays : ∀ w ∈ stay, w.ticket ∈ d.tickets side)
    (first : woken.map (·.place.ticket) = popped.map (·.ticket))
    (within : ∀ s ∈ woken, s ∈ called ++ queued) :
    ((o.woken.map (·.task)).filter (· ∈ (called ++ queued).map (·.task))).length ≤
      woken.length := by
  have wakes := e.wakes_leaving (sound.balanced b) (effect_of_carried carried)
  let ours : List (Place × Waker) := (((x.registry b).leaving o.state).filter
    (!e.givesUp ·.1)).filter (·.2.task ∈ (called ++ queued).map (·.task))
  have entries : ours ⊆ (x.registry b).leaving o.state := fun entry member =>
    (List.mem_filter.1 (List.mem_filter.1 member).1).1
  have count : ((o.woken.map (·.task)).filter
      (· ∈ (called ++ queued).map (·.task))).length = ours.length := by
    rw [((wakes.map (·.task)).filter _).length_eq.symm, List.filter_map, List.filter_map,
      List.length_map, List.length_map]
    rfl
  have single : (ours.map (·.1)).Nodup := by
    refine (sound.balanced b).nodup_waiting.sublist (List.Sublist.map _ ?_)
    exact List.filter_sublist.trans (List.filter_sublist.trans List.filter_sublist)
  have among : ours.map (·.1) ⊆ woken.map (·.place) := by
    intro p member
    obtain ⟨⟨p, k⟩, entry, rfl⟩ := List.mem_map.1 member
    have own := of_decide_eq_true (List.mem_filter.1 entry).2
    obtain ⟨-, s, member', -, rfl⟩ := queues.leaving_of_woken wakers carried (entries entry) own
    obtain ⟨queued, out⟩ := Registry.mem_leaving_iff.1 (List.mem_map_of_mem (entries entry))
    obtain ⟨rfl, rfl⟩ := Place.isAt_iff.1 (queues.fits s member')
    rw [Registry.isQueued_of_find? found, Channel.tickets, WaitLine.tickets, left, List.map_append,
      List.mem_append, ← first] at queued
    rcases queued with popped | remains
    · obtain ⟨s', member'', same⟩ := List.mem_map.1 popped
      rw [← queues.place_eq sound member' (within s' member'') same]
      exact List.mem_map_of_mem member''
    · obtain ⟨w, member, same⟩ := List.mem_map.1 remains
      have queued := (Registry.isQueued_of_find? found').2 (same ▸ stays w member)
      cases queued.symm.trans out
  have length := (List.subperm_of_subset single among).length_le
  rw [List.length_map, List.length_map] at length
  rwa [count]

/-- Of those in the queue, an errand wakes the ones who leave the line at its front. -/
theorem woken_here (sound : x.Sound u)
    (wakers : ∀ b p k, (p, k) ∈ (x.registry b).waiting → (b, p) ∈ x.placesOf k.task)
    (carried : x.carried b e = some o) (found : (x.registry b).find? a = some c)
    (found' : o.state.find? a = some d) {popped stay : List (Waiter Waker)}
    (left : (c.line side).waiters = popped ++ stay)
    (stays : ∀ w ∈ stay, w.ticket ∈ d.tickets side)
    (calls : (popped.map (·.waker)).Sublist o.woken) :
    ∃ woken queued', queued = woken ++ queued' ∧
      queued'.map (·.place.ticket) = stay.map (·.ticket) ∧
      (o.woken.map (·.task)).filter (· ∈ (called ++ queued).map (·.task)) = woken.map (·.task) := by
  obtain ⟨c', there, tickets⟩ := queues.line
  cases found.symm.trans there
  rw [Channel.tickets, WaitLine.tickets, left, List.map_append] at tickets
  obtain ⟨woken, queued', split, first, later⟩ := List.map_eq_append_iff.1 tickets.symm
  refine ⟨woken, queued', split, later, ?_⟩
  have inQueue (s : Seat) (member : s ∈ woken) : s ∈ called ++ queued :=
    List.mem_append_right _ (split ▸ List.mem_append_left _ member)
  -- They are the tasks of the entries that were popped.
  have tasks : popped.map (·.waker.task) = woken.map (·.task) := by
    refine map_eq_map_of_imp first.symm fun w member s member' same => ?_
    refine queues.task_of_waiter sound wakers found (inQueue s member') ?_ same.symm
    rw [left]
    exact List.mem_append_left _ member
  have within : (woken.map (·.task)).filter (· ∈ (called ++ queued).map (·.task)) =
      woken.map (·.task) := by
    refine List.filter_eq_self.2 fun t member => decide_eq_true ?_
    obtain ⟨s, member', rfl⟩ := List.mem_map.1 member
    exact List.mem_map_of_mem (inQueue s member')
  have sublist := (calls.map (·.task)).filter (· ∈ (called ++ queued).map (·.task))
  rw [List.map_map, show ((·.task) ∘ (·.waker) : Waiter Waker → Nat) = (·.waker.task) from rfl,
    tasks, within] at sublist
  refine (sublist.eq_of_length_le ?_).symm
  rw [List.length_map]
  exact queues.length_woken_le sound wakers carried found found' left stays first inQueue

/-- The queue goes on with those who were woken, once the rest of the line is known. -/
theorem of_line {woken queued' : List Seat} (trades : x.Trades y errand)
    (seated : ∀ s ∈ called ++ queued, ∃ task, y.Occupies b s task)
    (upcoming : y.upcoming.filter (· ∈ (called ++ queued).map (·.task)) =
      x.upcoming.filter (· ∈ (called ++ queued).map (·.task)) ++
        (x.owed errand).filter (· ∈ (called ++ queued).map (·.task)))
    (split : queued = woken ++ queued')
    (owed : (x.owed errand).filter (· ∈ (called ++ queued).map (·.task)) = woken.map (·.task))
    (found : (y.registry b).find? a = some d)
    (tickets : d.tickets side = queued'.map (·.place.ticket)) :
    y.Queues b a side (called ++ woken) queued' := by
  have same : called ++ woken ++ queued' = called ++ queued := by rw [split, List.append_assoc]
  refine ⟨same ▸ seated, same ▸ queues.fits, same ▸ queues.apart, ?_, ⟨d, found, tickets⟩, ?_⟩
  · rw [same, upcoming, queues.next, owed, List.map_append]
  · intro p holds here
    rw [same]
    rcases trades.held_or_queued holds with old | queued
    · exact queues.held p old here
    · obtain ⟨rfl, rfl⟩ := Place.isAt_iff.1 here
      have inside := (Registry.isQueued_of_find? found).1 queued
      refine exists_seat queues.fits here ?_
      rw [tickets] at inside
      rw [List.map_append, split, List.map_append]
      exact List.mem_append_right _ (List.mem_append_right _ inside)

/-- Whoever leaves the line alone serves it from the front. -/
theorem goOn (sound : x.Sound u)
    (wakers : ∀ b p k, (p, k) ∈ (x.registry b).waiting → (b, p) ∈ x.placesOf k.task)
    (trades : x.Trades y errand)
    (seated : ∀ s ∈ called ++ queued, ∃ task, y.Occupies b s task)
    (upcoming : y.upcoming.filter (· ∈ (called ++ queued).map (·.task)) =
      x.upcoming.filter (· ∈ (called ++ queued).map (·.task)) ++
        (x.owed errand).filter (· ∈ (called ++ queued).map (·.task)))
    (leaves : ∀ e, errand = some (b, e) → e.LeavesLine a side)
    (elsewhere : ∀ e, errand = some (b, e) → ∀ p ∈ e.prior?, p.isAt a side = false)
    (found : (x.registry b).find? a = some c) : ∃ woken queued' d, queued = woken ++ queued' ∧
      y.Queues b a side (called ++ woken) queued' ∧ (y.registry b).find? a = some d ∧
      (side = .receivers → (∀ e, errand = some (b, e) → ¬e.TakesFrom a) → c.Feeds d) := by
  obtain ⟨c', there, tickets⟩ := queues.line
  cases found.symm.trans there
  have rests (same : y.registry b = x.registry b)
      (owed : (x.owed errand).filter (· ∈ (called ++ queued).map (·.task)) = []) :
      ∃ woken queued' d, queued = woken ++ queued' ∧
      y.Queues b a side (called ++ woken) queued' ∧ (y.registry b).find? a = some d ∧
      (side = .receivers → (∀ e, errand = some (b, e) → ¬e.TakesFrom a) → c.Feeds d) :=
    ⟨[], queued, c, rfl, queues.of_line trades seated upcoming rfl owed (same ▸ found) tickets,
      same ▸ found, fun _ _ => .refl c⟩
  cases trades' : trades with
  | idle registry _ => exact rests (registry b) rfl
  | @errand b' e o _ _ carried here others _ _ _ _ _ =>
    by_cases bus : b' = b
    · subst bus
      obtain ⟨d, found', ⟨popped, left, calls⟩, feeds⟩ := Errand.exists_serves
        (effect_of_carried carried) found (leaves e rfl) (elsewhere e rfl)
      obtain ⟨woken, queued', split, tickets', woke⟩ := queues.woken_here sound wakers carried found
        found' left (fun w member => List.mem_map_of_mem member) calls
      refine ⟨woken, queued', d, split, queues.of_line trades seated upcoming split ?_
        (here ▸ found') ?_, here ▸ found', fun own nothing => feeds own (nothing e rfl)⟩
      · rw [owed_of_carried carried, woke]
      · rw [tickets']
        rfl
    · refine rests (others b (Ne.symm bus)) ?_
      rw [owed_of_carried carried, queues.woken_elsewhere sound wakers carried bus]

end Queues

end Executor

end MessageBus
