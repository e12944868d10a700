import MessageBus.Proofs.Accounting.Occurrences
import MessageBus.Proofs.Holders
import MessageBus.Proofs.Moments
import MessageBus.Proofs.Sums

/-!
# The counters are exact

A run without bare waits keeps the books (`Executor.Continuation.keeps`). Every ticket was told of,
or is yet to be when its wakers have been called. It is the ticket of a place that is held or of one
that came to its end, and never of both. So between requests the counters and the events of an
executor can be read off what came to pass, and the numbers of its tickets and identities off its
buses (`Executor.accounts_are_exact`).
-/

namespace MessageBus

/-! ### Counting -/

/-- Things that lie on one of so many buses can be counted bus by bus. -/
theorem sum_countP_onBus {α : Type} (things : List (Nat × α)) (q : Nat → α → Bool) {n : Nat}
    (inside : ∀ thing ∈ things, thing.1 < n) :
    ∑ b ∈ Finset.range n, (onBus b things).countP (q b) =
      things.countP fun thing => q thing.1 thing.2 := by
  induction things with
  | nil => simp [onBus]
  | cons thing things ih =>
    obtain ⟨first, later⟩ := List.forall_mem_cons.1 inside
    have split (b : Nat) : (onBus b (thing :: things)).countP (q b) =
        (onBus b things).countP (q b) +
          if thing.1 = b then (if q b thing.2 then 1 else 0) else 0 := by
      by_cases here : thing.1 = b
      · simp [onBus, here, List.countP_cons]
      · simp [onBus, here]
    rw [Finset.sum_congr rfl fun b _ => split b, Finset.sum_add_distrib, ih later,
      Finset.sum_ite_eq, if_pos (Finset.mem_range.2 first), List.countP_cons]

theorem length_eq_countP_standing {α : Type} (f : α → Standing) (things : List α) :
    things.length = things.countP (f · = .queued) + things.countP (f · = .called) +
      things.countP (f · = .gone) := by
  induction things with
  | nil => rfl
  | cons thing things ih =>
    rw [List.length_cons, List.countP_cons, List.countP_cons, List.countP_cons, ih]
    cases f thing <;> simp <;> omega

/-! ### What is told and what is still to be told -/

/-- What a frame has to tell. -/
def Frame.untold : Frame → List Note
  | tell notes => notes
  | _ => []

namespace Executor

variable {u : Usage} {Allows : Moment → Prop} {x y : Executor} {b t : Nat} {e : Errand Waker}
  {f : Frame} {o : Outcome (Registry Waker) Waker Upshot} {change : Task → Task}
  {frames rest : List Frame} {errand : Option (Nat × Errand Waker)} {told : List Note}
  {happened : List Occurrence} {trail : List Moment} {inline : Bool}

/-- What is still to be told of what has happened. -/
def untold (x : Executor) : List Note := x.stack.flatMap (·.untold)

theorem Quiet.untold (quiet : x.Quiet f t change frames) : frames.flatMap (·.untold) = [] := by
  cases quiet with
  | replaces replaces _ => cases replaces <;> rfl
  | _ => rfl

theorem Sequel.untold (sequel : x.Sequel f b e o t change frames) :
    frames.flatMap (·.untold) = [] ∧ f.untold = [] := by
  cases sequel with
  | @looks _ _ _ _ _ _ p _ _ _ =>
    refine ⟨?_, rfl⟩
    rcases p.answer with _ | _ | _ | _ <;> rfl
  | @looksAtStream w task _ _ p _ _ _ _ _ =>
    have pending : (task.ifPending w).untold = [] := by
      rw [Task.ifPending]
      split <;> rfl
    refine ⟨?_, rfl⟩
    rcases p.answer with (_ | _) | _ | _ | _
    · rfl
    · rfl
    · rw [List.flatMap_singleton]
      exact pending
    · rw [List.flatMap_singleton]
      exact pending
    · rfl
  | abandons forgets =>
    cases forgets with
    | stream replaces _ _ => cases replaces <;> exact ⟨rfl, rfl⟩
    | place _ _ => exact ⟨rfl, rfl⟩
  | _ => exact ⟨rfl, rfl⟩

theorem told_of_none (stack : x.stack = f :: rest) (none : x.errand? = none) :
    x.told = f.untold := by
  have nothing : x.notesOf x.errand? = [] := by
    rw [none]
    rfl
  rw [Executor.told, stack]
  cases f <;> first | rfl | exact nothing

theorem told_of_untold (stack : x.stack = f :: rest) (silent : f.untold = []) :
    x.told = x.notesOf x.errand? := by
  rw [Executor.told, stack]
  cases f with
  | tell notes =>
    obtain rfl : notes = [] := silent
    rw [errand?, stack]
    rfl
  | _ => rfl

/-- How what is told fits what there is to tell. Without an errand, it was still to be told; of an
errand a part is told, and the rest is still to be told. -/
inductive Discloses (x y : Executor) (told : List Note) : Option (Nat × Errand Waker) → Prop where
  | idle (same : told ++ y.untold = x.untold) : Discloses x y told none
  | errand {b : Nat} {e : Errand Waker} {o : Outcome (Registry Waker) Waker Upshot}
      (carried : x.carried b e = some o) (now : told = o.notes)
      (later : y.untold = o.afterwards ++ x.untold) : Discloses x y told (some (b, e))

theorem Sound.tells_step (sound : x.Sound u) : x.Discloses x.step x.told x.errand? := by
  cases stack : x.stack with
  | nil =>
    have none : x.errand? = none := by rw [errand?, stack]
    rw [step_of_stack_nil stack, Executor.told, stack, none]
    exact .idle rfl
  | cons f rest =>
    have before : x.untold = f.untold ++ rest.flatMap (·.untold) := by
      rw [untold, stack, List.flatMap_cons]
    have quietly (none : x.errand? = none) (frames : List Frame)
        (after : x.step.stack = frames ++ rest) (silent : frames.flatMap (·.untold) = []) :
        x.Discloses x.step x.told x.errand? := by
      rw [told_of_none stack none, none]
      refine .idle ?_
      rw [before, untold, after, List.flatMap_append, silent, List.nil_append]
    cases x.step_unfolds stack with
    | quiet none quiet leads => exact quietly none _ leads.stack quiet.untold
    | releases none leads => exact quietly none [] leads.stack rfl
    | @polls w later _ none _ _ leads _ =>
      exact quietly none [.poll ⟨w.task, 0⟩, .wake later] leads.stack rfl
    | @readies _ later none leads _ _ _ =>
      exact quietly none [.wake later] leads.stack rfl
    | @drains _ _ _ _ frames limit polled none _ alive leads _ =>
      refine quietly none (frames ++ [.drain limit polled]) ?_ ?_
      · rw [List.append_assoc]
        exact leads.stack
      · rcases alive with rfl | ⟨rfl, -⟩ <;> rfl
    | enters errand carried sequel leads =>
      obtain ⟨after, silent⟩ := sequel.untold
      rw [told_of_untold stack silent, errand]
      refine .errand carried ?_ ?_
      · rw [notesOf_some, carried]
        rfl
      · rw [before, silent, untold, leads.stack]
        simp only [List.flatMap_cons, List.flatMap_append, after]
        rfl
    | fails errand failed _ _ _ _ => exact absurd failed (sound.carried errand)

theorem Sound.tells_ask (sound : x.Sound u) (idle : x.stack = []) {s : Step}
    (lawful : s.Lawful u x.buses.length) :
    x.Discloses (x.ask s) (x.notesOf s.errand?) s.errand? := by
  have quietly {y : Executor} (frames : List Frame) (stack : y.stack = frames ++ x.stack)
      (silent : frames.flatMap (·.untold) = []) : x.Discloses y (x.notesOf none) none := by
    refine .idle ?_
    rw [untold, stack, List.flatMap_append, silent]
    rfl
  cases x.ask_asked s with
  | answers none answer leads =>
    rw [none]
    refine quietly _ leads.stack ?_
    rcases answer with rfl | ⟨reply, rfl⟩ <;> rfl
  | @runs limit leads => exact quietly [.drain limit 0] leads.stack rfl
  | @polls w _ _ _ leads => exact quietly [.poll w, .verdict w.task] leads.stack rfl
  | @drops _ t _ reply _ _ leads =>
    exact quietly [.vacate t, .complete .outside reply] leads.stack rfl
  | dropsInUse _ _ _ => exact lawful.elim
  | adds leads => exact quietly [] leads.stack rfl
  | spawns leads _ => exact quietly [] leads.stack rfl
  | operates _ carried leads =>
    refine .errand carried ?_ ?_
    · rw [Step.errand?, notesOf_some, carried]
      rfl
    · rw [untold, leads.stack]
      rfl
  | fails failed _ _ _ =>
    exact absurd failed (sound.carried_of_free lawful (sound.calm_of_idle idle _) _)

/-! ### Sums over all buses and over all tasks -/

/-- What a number that each registry has comes to on all buses. -/
def total (x : Executor) (f : Registry Waker → Nat) : Nat :=
  (x.buses.map fun bus => f bus.registry).sum

/-- The places that are held, each with its bus. -/
def places (x : Executor) : List (Nat × Place) := x.tasks.flatMap (·.places)

variable {number : Registry Waker → Nat} {n : Nat}

theorem total_eq_sum (none : number {} = 0) (le : x.buses.length ≤ n) :
    x.total number = ∑ b ∈ Finset.range n, number (x.registry b) := by
  rw [total, sum_eq_sum_range (n := n) _ (by rwa [List.length_map])]
  refine Finset.sum_congr rfl fun b _ => ?_
  rw [List.getElem?_map, registry]
  cases x.buses[b]? with
  | none => exact none.symm
  | some bus => rfl

theorem length_places_eq_sum (le : x.tasks.length ≤ n) :
    x.places.length = ∑ t ∈ Finset.range n, (x.placesOf t).length := by
  rw [places, List.length_flatMap, sum_eq_sum_range (n := n) _ (by rwa [List.length_map])]
  refine Finset.sum_congr rfl fun t _ => ?_
  rw [List.getElem?_map, placesOf]
  cases x.tasks[t]? <;> rfl

theorem total_of_same (none : number {} = 0) (same : ∀ b, y.registry b = x.registry b) :
    y.total number = x.total number := by
  rw [total_eq_sum none (Nat.le_max_left y.buses.length x.buses.length),
    total_eq_sum none (Nat.le_max_right y.buses.length x.buses.length)]
  exact Finset.sum_congr rfl fun b _ => congrArg number (same b)

/-- A bus that is changed alone counts for all. -/
theorem total_of_elsewhere (number : Registry Waker → Nat) (none : number {} = 0)
    (elsewhere : ∀ b', b' ≠ b → y.registry b' = x.registry b') :
    y.total number + number (x.registry b) = x.total number + number (y.registry b) := by
  have beyond := Nat.le_max_left (max y.buses.length x.buses.length) (b + 1)
  rw [total_eq_sum none (Nat.le_trans (Nat.le_max_left _ _) beyond),
    total_eq_sum none (Nat.le_trans (Nat.le_max_right _ _) beyond)]
  exact sum_add_of_same (Nat.le_max_right _ (b + 1)) fun b' other =>
    congrArg number (elsewhere b' other)

theorem length_places_of_same (same : ∀ t, y.placesOf t = x.placesOf t) :
    y.places.length = x.places.length := by
  rw [length_places_eq_sum (Nat.le_max_left y.tasks.length x.tasks.length),
    length_places_eq_sum (Nat.le_max_right y.tasks.length x.tasks.length)]
  exact Finset.sum_congr rfl fun t _ => congrArg List.length (same t)

/-- A task whose places are changed alone counts for all. -/
theorem length_places_of_beside (beside : ∀ t', t' ≠ t → y.placesOf t' = x.placesOf t') :
    y.places.length + (x.placesOf t).length = x.places.length + (y.placesOf t).length := by
  have beyond := Nat.le_max_left (max y.tasks.length x.tasks.length) (t + 1)
  rw [length_places_eq_sum (Nat.le_trans (Nat.le_max_left _ _) beyond),
    length_places_eq_sum (Nat.le_trans (Nat.le_max_right _ _) beyond)]
  exact sum_add_of_same (Nat.le_max_right _ (t + 1)) fun t' other =>
    congrArg List.length (beside t' other)

theorem Sound.inside_of_mem_places (sound : x.Sound u) {held : Nat × Place}
    (holds : held ∈ x.places) : held.1 < x.buses.length := by
  obtain ⟨task, member, holds⟩ := List.mem_flatMap.1 holds
  exact Task.inside_of_places (sound.tasks task member) holds

/-- How many of the places that are held stand like this. -/
def countStanding (x : Executor) (standing : Standing) : Nat :=
  x.places.countP fun held => (x.registry held.1).standing held.2 = standing

theorem length_places_eq (x : Executor) : x.places.length =
    x.countStanding .queued + x.countStanding .called + x.countStanding .gone :=
  length_eq_countP_standing _ _

/-- For each of the places that is queued there is an entry, and no others are there. -/
theorem Sound.total_waiting (sound : x.Sound u) :
    x.total (·.waiting.length) = x.countStanding .queued := by
  rw [total_eq_sum rfl (Nat.le_refl _), countStanding,
    ← sum_countP_onBus _ (fun b p => (x.registry b).standing p = .queued) fun _ =>
      sound.inside_of_mem_places]
  refine Finset.sum_congr rfl fun b _ => ?_
  rw [← List.length_map, (sound.waiting_perm b).length_eq, ← List.countP_eq_length_filter]
  exact List.countP_congr fun p _ => by
    rw [decide_eq_true_iff, Registry.standing_eq_queued_iff]

/-! ### What a run comes to -/

/-- What comes to pass when a bus is entered on this errand, if one is. -/
def occurrences (x : Executor) : Option (Nat × Errand Waker) → List Occurrence
  | none => []
  | some (b, e) => e.occurrences (x.registry b)

/-- How an executor stands after all of this was told and came to pass. -/
structure Keeps (x : Executor) (told : List Note) (happened : List Occurrence) : Prop where
  telemetry : x.telemetry = Telemetry.empty.noteAll told
  events : told.filterMap Note.event? = happened.filterMap (·.event?)
  counted : ∀ k ≠ .parked,
    (told.filterMap Note.counted?).count k = (happened.flatMap (·.counted)).count k
  /-- Every ticket that was given out was told of, or is still to be. -/
  parked : (told.filterMap Note.counted?).count .parked + x.untold.length = x.total (·.nextTicket)
  untold : ∀ n ∈ x.untold, n.counted? = some .parked ∧ n.event? = none
  /-- Every ticket that was given out is that of a place that is held, or was. -/
  tickets : x.total (·.nextTicket) = x.places.length + happened.countP (·.endsPlace)
  opened : x.total (·.nextId) = happened.count .opened

theorem keeps_new (inline : Bool) : (new inline).Keeps [] [] :=
  ⟨rfl, rfl, fun _ _ => rfl, rfl, nofun, rfl, rfl⟩

theorem counted_eq_of_untold {notes : List Note}
    (untold : ∀ n ∈ notes, n.counted? = some .parked ∧ n.event? = none) :
    notes.filterMap Note.counted? = List.replicate notes.length .parked ∧
      notes.filterMap Note.event? = [] := by
  refine ⟨?_, List.filterMap_eq_nil_iff.2 fun n there => (untold n there).2⟩
  induction notes with
  | nil => rfl
  | cons n notes ih =>
    obtain ⟨first, later⟩ := List.forall_mem_cons.1 untold
    rw [List.filterMap_cons_some first.1, ih later]
    rfl

/-- Where no bus is entered, what was still to be told is told. -/
theorem Keeps.tells (keeps : x.Keeps told happened) {now : List Note}
    (telemetry : y.telemetry = x.telemetry.noteAll now) (same : now ++ y.untold = x.untold)
    (registry : ∀ b, y.registry b = x.registry b) (places : ∀ t, y.placesOf t = x.placesOf t) :
    y.Keeps (told ++ now) happened := by
  have parks : ∀ n ∈ now ++ y.untold, n.counted? = some .parked ∧ n.event? = none :=
    same ▸ keeps.untold
  obtain ⟨counted, events⟩ := counted_eq_of_untold fun n there =>
    parks n (List.mem_append_left _ there)
  constructor
  · rw [telemetry, keeps.telemetry, Telemetry.noteAll_append]
  · rw [List.filterMap_append, events, List.append_nil, keeps.events]
  · intro k other
    rw [List.filterMap_append, counted, List.count_append, keeps.counted k other,
      List.count_replicate, if_neg (by simpa using other.symm), Nat.add_zero]
  · have length := congrArg List.length same
    rw [List.length_append] at length
    rw [total_of_same rfl registry, ← keeps.parked, List.filterMap_append, counted,
      List.count_append, List.count_replicate_self, Nat.add_assoc, length]
  · exact fun n there => parks n (List.mem_append_right _ there)
  · rw [total_of_same rfl registry, length_places_of_same places, keeps.tickets]
  · rw [total_of_same rfl registry, keeps.opened]

/-- Where a bus is entered on an errand, all that comes to pass is told, apart from the new tickets,
which are still to be told of. -/
theorem Keeps.enters (keeps : x.Keeps told happened) {others : List (Nat × Place)}
    (ran : e.effect (x.registry b) = .ok o) (books : e.Books (x.registry b) o)
    (telemetry : y.telemetry = x.telemetry.noteAll o.notes)
    (later : y.untold = o.afterwards ++ x.untold) (here : y.registry b = o.state)
    (elsewhere : ∀ b', b' ≠ b → y.registry b' = x.registry b')
    (before : (x.placesOf t).Perm (e.prior?.toList.map (b, ·) ++ others))
    (after : (y.placesOf t).Perm (o.answer.places.map (b, ·) ++ others))
    (beside : ∀ t', t' ≠ t → y.placesOf t' = x.placesOf t') :
    y.Keeps (told ++ o.notes) (happened ++ e.occurrences (x.registry b)) := by
  have length : o.afterwards.length = o.state.nextTicket - (x.registry b).nextTicket := by
    rw [← List.length_map (f := Note.counted?), books.countedLater, List.length_replicate]
  have more := e.nextTicket_le ran
  have tickets := total_of_elsewhere (·.nextTicket) rfl elsewhere
  have ids := total_of_elsewhere (·.nextId) rfl elsewhere
  rw [here] at tickets ids
  have places := length_places_of_beside beside
  rw [before.length_eq, after.length_eq, List.length_append, List.length_append, List.length_map,
    List.length_map] at places
  have unparked : (o.notes.filterMap Note.counted?).count .parked = 0 := by
    rw [books.counted, Occurrence.count_flatMap_counted (fun _ => false)
      fun o => o.count_counted.2.2.2.2]
    exact List.countP_eq_zero.2 fun _ _ => Bool.false_ne_true
  constructor
  · rw [telemetry, keeps.telemetry, Telemetry.noteAll_append]
  · rw [List.filterMap_append, List.filterMap_append, keeps.events, books.events]
  · intro k other
    rw [List.filterMap_append, List.flatMap_append, List.count_append, List.count_append,
      keeps.counted k other, books.counted]
  · have parked := keeps.parked
    rw [List.filterMap_append, List.count_append, unparked, later, List.length_append, length]
    omega
  · intro n there
    rw [later, List.mem_append] at there
    rcases there with new | old
    · refine ⟨?_, List.filterMap_eq_nil_iff.1 books.eventsLater n new⟩
      have counted := List.mem_map_of_mem (f := Note.counted?) new
      rw [books.countedLater] at counted
      exact List.eq_of_mem_replicate counted
    · exact keeps.untold n old
  · have kept := books.tickets
    have all := keeps.tickets
    rw [List.countP_append]
    omega
  · have opened := books.opened
    have all := keeps.opened
    rw [List.count_append]
    omega

theorem Keeps.next (keeps : x.Keeps told happened) (trades : x.Trades y errand) {now : List Note}
    (tells : x.Discloses y now errand) (telemetry : y.telemetry = x.telemetry.noteAll now)
    (unparked : ∀ b a side k, errand ≠ some (b, .park a side k)) :
    y.Keeps (told ++ now) (happened ++ x.occurrences errand) := by
  cases trades with
  | idle registry places =>
    cases tells with
    | idle same =>
      rw [occurrences, List.append_nil]
      exact keeps.tells telemetry same registry places
  | errand carried here elsewhere before after beside _ _ =>
    cases tells with
    | errand carried' now later =>
      cases carried.symm.trans carried'
      subst now
      have ran := effect_of_carried carried
      have books := Errand.books ran fun a side k same => by
        subst same
        exact absurd rfl (unparked _ a side k)
      exact keeps.enters ran books telemetry later here elsewhere before after beside

/-- A task waits only for a request, unless it may wait for nothing. -/
theorem Sound.ne_park (sound : x.Sound u) (noBareWaits : ¬u.bareWaits) (b : Nat) (a : Address)
    (side : Side) (k : Waker) : x.errand? ≠ some (b, .park a side k) := by
  intro errand
  cases stack : x.stack with
  | nil =>
    rw [errand?, stack] at errand
    cases errand
  | cons f rest =>
    obtain ⟨o, t, change, frames, carried, sequel, leads⟩ := sound.enters stack errand
    have waits {w : Waker} {task : Task} {h : Handle} (found : x.tasks[w.task]? = some task)
        (current : task.current? = some ⟨b, .wait h side⟩) : False :=
      noBareWaits ((sound.tasks task (List.mem_of_getElem? found)).program _
        (List.mem_of_getElem? current)).2
    cases sequel with
    | parks found _ current _ _ => exact waits found current
    | parksNowhere found _ current _ _ => exact waits found current

/-- What came to pass at the moments of a trail. -/
def happenedIn (trail : List Moment) : List Occurrence :=
  trail.flatMap fun m => m.now.occurrences m.errand?

theorem happenedIn_concat (trail : List Moment) (m : Moment) :
    happenedIn (trail ++ [m]) = happenedIn trail ++ m.now.occurrences m.errand? := by
  rw [happenedIn, List.flatMap_append, List.flatMap_singleton]
  rfl

/-- A run without bare waits keeps the books. -/
theorem Continuation.keeps (run : Continuation u Allows (new inline) x trail)
    (noBareWaits : ¬u.bareWaits) : ∃ told, x.Keeps told (happenedIn trail) := by
  induction run with
  | refl => exact ⟨[], keeps_new inline⟩
  | @step y _ run _ ih =>
    obtain ⟨told, keeps⟩ := ih
    have sound := (run.reachable (reachable_new u inline)).sound
    rw [happenedIn_concat]
    exact ⟨_, keeps.next sound.trades_step sound.tells_step y.telemetry_step
      (sound.ne_park noBareWaits)⟩
  | @ask y _ s run idle lawful _ ih =>
    obtain ⟨told, keeps⟩ := ih
    have sound := (run.reachable (reachable_new u inline)).sound.cleared
    have cleared : ({ y with log := [], answer := none } : Executor).Keeps told _ :=
      ⟨keeps.telemetry, keeps.events, keeps.counted, keeps.parked, keeps.untold, keeps.tickets,
        keeps.opened⟩
    rw [happenedIn_concat]
    refine ⟨_, cleared.next (sound.trades_ask idle lawful) (sound.tells_ask idle lawful)
      (telemetry_ask _ s) fun b a side k same => ?_⟩
    cases s with
    | act b' action => cases action <;> cases same
    | _ => cases same

/-- What came to pass accounts for the counters, the events and the numbers of an executor. -/
structure AccountsFor (x : Executor) (happened : List Occurrence) : Prop where
  /-- Every ticket that was given out is counted. -/
  tickets : x.telemetry.counter .parked = x.total (·.nextTicket)
  /-- Each is that of an entry, of a waiter that was called and has not come back, of one whose
  channel is gone, or of a place that came to its end, in one of three ways. -/
  places : x.telemetry.counter .parked =
    x.total (·.waiting.length) + x.countStanding .called + x.countStanding .gone +
      happened.countP (·.resumes) + x.telemetry.counter .resumedOnClosed +
      happened.countP (·.drops)
  resumedOnClosed : x.telemetry.counter .resumedOnClosed =
    happened.countP (·.resumesOnClosed)
  /-- A wakeup is passed on for each place that was called and given up while its channel was still
  open. -/
  forwarded : x.telemetry.counter .wakeupForwarded = happened.countP (·.forwards)
  blockers : x.telemetry.counter .blockerClosed =
    happened.countP (·.losesBlocker)
  opened : x.telemetry.counter .channelsOpened = x.total (·.nextId)
  /-- There is one event for each channel that was closed and one for each bus that was deleted, in
  the order in which it came to pass. -/
  events : x.telemetry.events = TelemetryEvent.numbered (happened.filterMap (·.event?))

/-- Between the requests of a run without bare waits, the accounts are exact. -/
theorem accounts_are_exact (noBareWaits : ¬u.bareWaits)
    (run : Continuation u Allows (new inline) x trail) (idle : x.stack = []) :
    x.AccountsFor (happenedIn trail) := by
  obtain ⟨told, keeps⟩ := run.keeps noBareWaits
  have sound := (run.reachable (reachable_new u inline)).sound
  have counter {k : CounterKey} (other : k ≠ .parked) {raises : Occurrence → Bool}
      (fits : ∀ o : Occurrence, o.counted.count k = if raises o then 1 else 0) :
      x.telemetry.counter k = (happenedIn trail).countP raises := by
    rw [keeps.telemetry, Telemetry.counter_noteAll, keeps.counted k other,
      Occurrence.count_flatMap_counted raises fits]
  have tickets : x.telemetry.counter .parked = x.total (·.nextTicket) := by
    have all := keeps.parked
    rw [untold, idle] at all
    rw [keeps.telemetry, Telemetry.counter_noteAll]
    exact all
  have resumedOnClosed : x.telemetry.counter .resumedOnClosed =
      (happenedIn trail).countP (·.resumesOnClosed) :=
    counter (by decide) fun o => o.count_counted.1
  refine ⟨tickets, ?_, resumedOnClosed, ?_, ?_, ?_, ?_⟩
  · have ended := Occurrence.countP_endsPlace (happenedIn trail)
    rw [tickets, keeps.tickets, length_places_eq, sound.total_waiting, resumedOnClosed, ended]
    omega
  · exact counter (by decide) fun o => o.count_counted.2.1
  · exact counter (by decide) fun o => o.count_counted.2.2.1
  · exact (counter (by decide) fun o => o.count_counted.2.2.2.1).trans keeps.opened.symm
  · rw [keeps.telemetry, (Telemetry.events_noteAll told).1, keeps.events]

/-- Of four places, one is given up after it was called, one loses what held up its broadcast, one
is come back to, and one is still held when the bus is deleted. -/
def fourEndings : List Step :=
  [.act 0 (.operate (.openChannel 1)), .act 0 (.operate (.openChannel 1)),
    .spawn [⟨0, .call (.recv 0)⟩] false, .run none,
    .act 0 (.operate (.trySend 0 5)), .act 0 (.drop 0),
    .spawn [⟨0, .call (.broadcast 6)⟩] false, .run none,
    .act 0 (.operate (.close 0)), .run none,
    .spawn [⟨0, .call (.send 1 7)⟩] false, .run none,
    .act 0 (.operate (.tryRecv 1)), .run none,
    .spawn [⟨0, .call (.send 1 8)⟩] false, .run none,
    .act 0 (.operate .delete)]

theorem four_endings_accounted :
    let x := ((new false).runScript fourEndings).1
    let happened := happenedIn (trailOfScript (new false) fourEndings)
    x.AccountsFor happened ∧
      happened = [.opened, .opened, .dropped ⟨⟨0, ⟨0⟩⟩, .receivers, ⟨0⟩⟩ .called,
        .closed 0, .resumedOnClosed ⟨⟨0, ⟨0⟩⟩, .senders, ⟨1⟩⟩ true,
        .resumed ⟨⟨1, ⟨1⟩⟩, .senders, ⟨2⟩⟩, .deleted] ∧
      x.telemetry.counter .parked = 4 ∧ x.countStanding .gone = 1 := by
  intro x happened
  have obeys : (new false).Obeys .full fourEndings := by decide +kernel
  have run : Continuation .full (fun _ => True) (new false) x
      (trailOfScript (new false) fourEndings) :=
    Continuation.refl.runScript obeys fun _ _ => trivial
  have idle : x.stack = [] := List.isEmpty_iff.1 (by decide +kernel)
  exact ⟨accounts_are_exact (u := .full) id run idle, by decide +kernel, by decide +kernel,
    by decide +kernel⟩

end Executor

end MessageBus
