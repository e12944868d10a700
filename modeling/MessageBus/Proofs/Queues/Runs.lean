import MessageBus.Proofs.Queues.Front

/-!
# A queue in a run

A run is followed as long as the line of a queue is left to those who stand there
(`Moment.LeavesLine`): nobody joins it or gives up a place in it, the channel is not closed, and
tasks are made to go on by the ready list only. Where those who wait stand in the line, and none of
them is about to go on, they form a queue (`Executor.WaitInOrder.queues`).
-/

namespace MessageBus

/-- Whether a line of a channel is left to those who stand there, and no task is told to go on from
outside. -/
structure Moment.LeavesLine (b : Nat) (a : Address) (side : Side) (m : Moment) : Prop where
  unpolled : ∀ w, m.asked ≠ some (.poll w)
  errand : ∀ e, m.errand? = some (b, e) → e.LeavesLine a side

theorem forall_errand_iff {b b' : Nat} {e : Errand Waker} {P : Errand Waker → Prop} :
    (b' = b → P e) ↔ ∀ e', some (b', e) = some (b, e') → P e' := by
  constructor
  · rintro here e' same
    cases same
    exact here rfl
  · rintro each rfl
    exact each e rfl

instance (b : Nat) (P : Errand Waker → Prop) [DecidablePred P] :
    (errand : Option (Nat × Errand Waker)) → Decidable (∀ e, errand = some (b, e) → P e)
  | none => .isTrue fun _ none => absurd none.symm (Option.some_ne_none _)
  | some _ => decidable_of_iff _ forall_errand_iff

instance : (asked : Option Step) → Decidable (∀ w, asked ≠ some (.poll w))
  | some (.poll w) => .isFalse fun none => none w rfl
  | none | some (.act _ _) | some .addBus | some (.spawn _ _) | some (.run _)
  | some (.dropInUse _ _) | some .report => .isTrue (by simp)

instance (b : Nat) (a : Address) (side : Side) (m : Moment) : Decidable (m.LeavesLine b a side) :=
  decidable_of_iff
    ((∀ w, m.asked ≠ some (.poll w)) ∧ ∀ e, m.errand? = some (b, e) → e.LeavesLine a side)
    ⟨fun h => ⟨h.1, h.2⟩, fun h => ⟨h.unpolled, h.errand⟩⟩

/-- From outside a bus is entered for an operation only. -/
theorem Step.exists_operation {q : Step} {b : Nat} {e : Errand Waker}
    (errand : q.errand? = some (b, e)) : ∃ op, e = .operate op := by
  cases q with
  | act b' action =>
    cases action with
    | operate op => exact ⟨op, (congrArg Prod.snd (Option.some.inj errand)).symm⟩
    | _ => cases errand
  | _ => cases errand

namespace Executor

variable {u : Usage} {Allows : Moment → Prop} {x y : Executor} {b : Nat} {a : Address}
  {side : Side} {s : Seat} {seats called queued : List Seat} {c : Channel Waker} {p : Place}
  {e : Errand Waker} {trail : List Moment}

/-- Whether a place in a line is given up next. -/
def GivesUpAt (x : Executor) (b : Nat) (a : Address) (side : Side) : Prop :=
  ∃ p : Place, p.isAt a side = true ∧ x.errand? = some (b, .abandon p)

/-- What holds at first and is kept as long as the line is left to those who stand there holds all
the time, unless a place there is given up next. -/
theorem Continuation.invariant {Inv : Executor → List Moment → Prop}
    (run : Continuation u Allows x y trail) (reachable : x.Reachable u)
    (deferred : x.inline = false)
    (leaves : ∀ m, Allows m → m.LeavesLine b a side) (start : Inv x [])
    (step : ∀ y trail, y.Reachable u → y.inline = false → Allows ⟨y, none⟩ → Inv y trail →
      Inv y.step (trail ++ [⟨y, none⟩]) ∨ y.step.GivesUpAt b a side)
    (ask : ∀ y trail s, y.Reachable u → y.inline = false → Allows ⟨y, some s⟩ → y.stack = [] →
      s.Lawful u y.buses.length → Inv y trail →
      Inv ({ y with log := [], answer := none }.ask s) (trail ++ [⟨y, some s⟩]) ∨
        GivesUpAt ({ y with log := [], answer := none }.ask s) b a side) :
    Inv y trail ∨ y.GivesUpAt b a side := by
  induction run with
  | refl => exact .inl start
  | @step y trail run allowed ih =>
    rcases ih with inv | ⟨p, here, errand⟩
    · exact step y trail (run.reachable reachable) ((run.inline_eq reachable).trans deferred)
        allowed inv
    · have other := (leaves _ allowed).errand _ errand
      cases here.symm.trans other
  | @ask y trail s run idle lawful allowed ih =>
    rcases ih with inv | ⟨p, here, errand⟩
    · exact ask y trail s (run.reachable reachable) ((run.inline_eq reachable).trans deferred)
        allowed idle lawful inv
    · rw [errand?, idle] at errand
      cases errand

namespace Queues

/-- Whoever comes from a place in the line and does not give it up is one of the queue. -/
theorem exists_proceeds (queues : x.Queues b a side called queued) (sound : x.Sound u)
    (errand : x.errand? = some (b, e)) (leaves : e.LeavesLine a side) (prior : p ∈ e.prior?)
    (here : p.isAt a side = true) : ∃ s ∈ called ++ queued, x.Proceeds s.task := by
  cases stack : x.stack with
  | nil =>
    rw [errand?, stack] at errand
    cases errand
  | cons f rest =>
    obtain ⟨o, t, change, frames, carried, sequel, -⟩ := sound.enters stack errand
    obtain ⟨⟨task, found⟩, -⟩ := sequel.own
    obtain ⟨others, before, -⟩ := sequel.places sound stack (effect_of_carried carried) found
    have holds : (b, p) ∈ x.placesOf t := by
      rw [placesOf_of_found found, before.mem_iff, Option.mem_def.1 prior]
      exact List.mem_cons_self
    obtain ⟨s, member, rfl⟩ := queues.held p (mem_held_iff.2 ⟨t, holds⟩) here
    obtain ⟨task', occupies⟩ := queues.seated s member
    obtain rfl : t = s.task := by
      refine sound.holder_eq ?_ holds
      rw [occupies.placesOf]
      exact List.mem_cons_self
    refine ⟨s, member, ?_⟩
    by_contra others
    rcases sequel.top_eq with own | ⟨rfl, -, -⟩
    · obtain rfl := occupies.stays.suspend_of_own sound others stack own
      rw [errand?, stack] at errand
      cases errand
    · rw [errand?, stack] at errand
      simp only [found, Option.bind_some, Task.placeErrand?] at errand
      obtain ⟨held, -, same⟩ := Option.map_eq_some_iff.1 errand
      obtain rfl : .abandon held.2 = e := congrArg Prod.snd same
      rw [← Option.some.inj prior] at here
      cases here.symm.trans leaves

theorem nodup_next (queues : x.Queues b a side called queued) :
    (x.upcoming.filter (· ∈ (called ++ queued).map (·.task))).Nodup := by
  have apart := queues.apart
  rw [List.map_append] at apart
  rw [queues.next]
  exact (List.nodup_append.1 apart).1

theorem exists_stays (queues : x.Queues b a side called queued) (t : Nat)
    (within : decide (t ∈ (called ++ queued).map (·.task)) = true) : ∃ task, x.Stays t task := by
  obtain ⟨s, member, rfl⟩ := List.mem_map.1 (of_decide_eq_true within)
  obtain ⟨task, occupies⟩ := queues.seated s member
  exact ⟨task, occupies.stays⟩

/-- As long as none of the queue goes on, it stays as it is, and the next ones are woken. -/
theorem step (queues : x.Queues b a side called queued) (reachable : x.Reachable u)
    (deferred : x.inline = false) (leaves : Moment.LeavesLine b a side ⟨x, none⟩)
    (others : ∀ s ∈ called ++ queued, ¬x.Proceeds s.task)
    (found : (x.registry b).find? a = some c) :
    (∃ woken queued' d, queued = woken ++ queued' ∧
      x.step.Queues b a side (called ++ woken) queued' ∧ (x.step.registry b).find? a = some d ∧
      (side = .receivers → (∀ e, x.errand? = some (b, e) → ¬e.TakesFrom a) → c.Feeds d)) ∨
    x.step.GivesUpAt b a side := by
  have sound := reachable.sound
  by_cases seated : ∀ s ∈ called ++ queued, ∃ task, x.step.Occupies b s task
  · refine .inl (queues.goOn sound reachable.wakers sound.trades_step seated ?_
      (fun e errand => leaves.errand e errand) (fun e errand p prior => ?_) found)
    · refine (reachable.orderly deferred).upcoming_step sound deferred queues.exists_stays
        (fun w rest stack => ?_) queues.nodup_next
      refine decide_eq_false fun within => ?_
      obtain ⟨s, member, same⟩ := List.mem_map.1 within
      exact others s member ⟨w, rest, stack, same.symm⟩
    · rw [← Bool.not_eq_true]
      intro here
      obtain ⟨s, member, proceeds⟩ :=
        queues.exists_proceeds sound errand (leaves.errand e errand) prior here
      exact others s member proceeds
  · simp only [not_forall] at seated
    obtain ⟨s, member, gone⟩ := seated
    obtain ⟨task, occupies⟩ := queues.seated s member
    exact .inr ⟨s.place, queues.fits s member, (occupies.step sound reachable.underway
      (others s member)).resolve_left gone⟩

theorem cleared (queues : x.Queues b a side called queued) :
    ({ x with log := [], answer := none } : Executor).Queues b a side called queued := by
  refine ⟨fun s member => ?_, queues.fits, queues.apart, queues.next, queues.line, queues.held⟩
  obtain ⟨task, occupies⟩ := queues.seated s member
  exact ⟨task, occupies.found, occupies.position, occupies.progress, occupies.places, occupies.life⟩

/-- So it is with a request from outside. -/
theorem ask {q : Step} (queues : x.Queues b a side called queued) (reachable : x.Reachable u)
    (idle : x.stack = []) (lawful : q.Lawful u x.buses.length)
    (leaves : Moment.LeavesLine b a side ⟨x, some q⟩) (found : (x.registry b).find? a = some c) :
    (∃ woken queued' d, queued = woken ++ queued' ∧
      ({ x with log := [], answer := none }.ask q).Queues b a side (called ++ woken) queued' ∧
      (({ x with log := [], answer := none }.ask q).registry b).find? a = some d ∧
      (side = .receivers → (∀ e, q.errand? = some (b, e) → ¬e.TakesFrom a) → c.Feeds d)) ∨
    GivesUpAt ({ x with log := [], answer := none }.ask q) b a side := by
  have sound := reachable.sound.cleared
  have queues := queues.cleared
  by_cases seated : ∀ s ∈ called ++ queued,
      ∃ task, ({ x with log := [], answer := none }.ask q).Occupies b s task
  · refine .inl (queues.goOn sound reachable.wakers (sound.trades_ask idle lawful) seated ?_
      (fun e errand => leaves.errand e errand) (fun e errand p prior => ?_) found)
    · refine upcoming_ask sound idle lawful queues.exists_stays fun w same => ?_
      exact leaves.unpolled w (congrArg some same)
    · -- An operation comes from no place.
      obtain ⟨op, rfl⟩ := Step.exists_operation errand
      cases prior
  · simp only [not_forall] at seated
    obtain ⟨s, member, gone⟩ := seated
    obtain ⟨task, occupies⟩ := queues.seated s member
    exact .inr ⟨s.place, queues.fits s member,
      (occupies.ask sound idle lawful).resolve_left gone⟩

end Queues

/-- Whether these calls, and nobody else, wait in a line of a channel, in this order. Each of them
is the only one in which its task waits, and none of the tasks is about to go on. -/
structure WaitInOrder (x : Executor) (b : Nat) (a : Address) (side : Side) (seats : List Seat) :
    Prop where
  waits : ∀ s ∈ seats, ∃ task ∈ x.tasks[s.task]?, task.life = .idle ∧ task.position = s.index ∧
    (∃ recorded, task.progress = .calling b s.request (some s.place) recorded) ∧
    task.places = [(b, s.place)]
  resting : ∀ s ∈ seats, s.task ∉ x.upcoming
  line : ∃ c ∈ (x.registry b).find? a, c.tickets side = seats.map (·.place.ticket)
  alone : ∀ p ∈ x.held b, p.isAt a side = true → ∃ s ∈ seats, s.place = p

instance (x : Executor) (b : Nat) (a : Address) (side : Side) (seats : List Seat) :
    Decidable (x.WaitInOrder b a side seats) :=
  decidable_of_iff
    ((∀ s ∈ seats, ∃ task ∈ x.tasks[s.task]?, task.life = .idle ∧ task.position = s.index ∧
        (∃ recorded, task.progress = .calling b s.request (some s.place) recorded) ∧
        task.places = [(b, s.place)]) ∧
      (∀ s ∈ seats, s.task ∉ x.upcoming) ∧
      (∃ c ∈ (x.registry b).find? a, c.tickets side = seats.map (·.place.ticket)) ∧
      ∀ p ∈ x.held b, p.isAt a side = true → ∃ s ∈ seats, s.place = p)
    ⟨fun h => ⟨h.1, h.2.1, h.2.2.1, h.2.2.2⟩, fun h => ⟨h.waits, h.resting, h.line, h.alone⟩⟩

theorem WaitInOrder.queues (wait : x.WaitInOrder b a side seats) (sound : x.Sound u) :
    x.Queues b a side [] seats := by
  have seated (s : Seat) (member : s ∈ seats) : ∃ task, x.Occupies b s task := by
    obtain ⟨task, found, idle, position, progress, places⟩ := wait.waits s member
    exact ⟨task, found, position, progress, places, .inl idle⟩
  have holds (s : Seat) (member : s ∈ seats) : s.place ∈ x.held b := by
    obtain ⟨task, occupies⟩ := seated s member
    refine mem_held_iff.2 ⟨s.task, ?_⟩
    rw [occupies.placesOf]
    exact List.mem_cons_self
  obtain ⟨c, found, tickets⟩ := wait.line
  refine ⟨seated, fun s member => ?_, ?_, ?_, wait.line, wait.alone⟩
  · have queued : (x.registry b).isQueued ⟨a, side, s.place.ticket⟩ = true := by
      refine (Registry.isQueued_of_find? found).2 ?_
      rw [tickets]
      exact List.mem_map_of_mem member
    rw [sound.place_eq (sound.held_of_isQueued queued) (holds s member) rfl]
    exact Place.isAt_iff.2 ⟨rfl, rfl⟩
  · -- Two calls of one task would have one place.
    have single := (sound.balanced b).single a c side found
    rw [tickets, List.nodup_iff_pairwise_ne, List.pairwise_map] at single
    rw [List.nil_append, List.nodup_iff_pairwise_ne, List.pairwise_map]
    refine single.imp_of_mem fun {s s'} member member' other same => other ?_
    obtain ⟨task, occupies⟩ := seated s member
    obtain ⟨task', occupies'⟩ := seated s' member'
    have one := occupies'.placesOf
    rw [← same, occupies.placesOf] at one
    exact congrArg (·.2.ticket) (List.singleton_inj.1 one)
  · refine List.filter_eq_nil_iff.2 fun t there within => ?_
    obtain ⟨s, member, rfl⟩ := List.mem_map.1 (of_decide_eq_true within)
    exact wait.resting s member there

end Executor

end MessageBus
