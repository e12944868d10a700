import MessageBus.Proofs.Polls
import MessageBus.Proofs.Stories.Looks

/-!
# Streams that are dropped

A stream is dropped when its task puts another one, or none, in its place, or is over. It has a
message for nobody: what it took from the channel it has given out. So nothing is lost with it if
its receive is given up as any other (`Executor.GivesUp`): whoever is still queued is taken out of
the line and nobody is woken, and a wakeup that was not acted on goes to the next in the line.
-/

namespace MessageBus

variable {ω : Type}

/-- The same callers in the same order, without the one with this ticket. -/
def WaitLine.without (l : WaitLine ω) (t : Ticket) : WaitLine ω :=
  ⟨l.waiters.filter (·.ticket ≠ t)⟩

/-- The same channels with the same queues and lines, without the caller at one place. -/
def Registry.without (r : Registry ω) (p : Place) : Registry ω :=
  { r with
    slots := r.slots.modify p.address.handle
      (·.map fun c => c.setLine p.side ((c.line p.side).without p.ticket)) }

/-- Where no ticket stands twice, taking the first caller with a ticket out takes out all. -/
theorem WaitLine.eq_without_of_remove? {l l' : WaitLine ω} {t : Ticket} (single : l.tickets.Nodup)
    (removed : l.remove? t = some l') : l' = l.without t := by
  obtain ⟨k, before, after, whole, left⟩ := waiters_of_remove? removed
  have others (ws : List (Waiter ω)) (out : ∀ w ∈ ws, w.ticket ≠ t) :
      ws.filter (·.ticket ≠ t) = ws :=
    List.filter_eq_self.2 fun w member => decide_eq_true (out w member)
  rw [WaitLine.tickets, whole, List.map_append, List.map_cons, List.nodup_append] at single
  obtain ⟨-, single, apart⟩ := single
  have first : ∀ w ∈ before, w.ticket ≠ t := fun w member =>
    apart w.ticket (List.mem_map_of_mem member) t List.mem_cons_self
  have last : ∀ w ∈ after, w.ticket ≠ t := fun w member same =>
    (List.nodup_cons.1 single).1 (List.mem_map.2 ⟨w, member, same⟩)
  have waiters : l'.waiters = l.waiters.filter (·.ticket ≠ t) := by
    rw [left, whole, List.filter_append, others before first,
      List.filter_cons_of_neg (by simp), others after last]
  exact congrArg WaitLine.mk waiters

namespace Registry

variable {r : Registry ω} {held : List Stay} {p : Place}

/-- Whoever gives up a place where it is still queued is taken out, and that is all. -/
theorem abandon_eq_without (bal : r.Balanced held) (queued : r.isQueued p = true) :
    r.abandon p = { answer := (), state := r.without p } := by
  obtain ⟨c, found, inside⟩ := exists_of_isQueued queued
  obtain ⟨l, removed, -⟩ := WaitLine.remove?_of_mem inside
  obtain ⟨slot, -⟩ := find?_eq_some_iff.1 found
  have line := WaitLine.eq_without_of_remove? (bal.single _ c p.side found) removed
  have slots : r.slots.modify p.address.handle
      (·.map fun c => c.setLine p.side ((c.line p.side).without p.ticket)) =
        r.slots.set p.address.handle (some (c.setLine p.side l)) := by
    rw [List.modify_eq_set, channel?_eq_some_iff.1 slot, line]
    rfl
  simp only [abandon, found, removed, without, slots, put]

end Registry

namespace Executor

variable {u : Usage} {x : Executor} {b t : Nat} {p : Place} {f : Frame} {rest : List Frame}

/-- The place is given up in the next step. No message leaves its queue or gets into another, and
unless the channel is gone, the place is taken out of its line or its wakeup is passed on. -/
structure GivesUp (x : Executor) (b : Nat) (p : Place) : Prop where
  messages : x.MovesNothing
  queued : (x.registry b).isQueued p = true → x.Changes b ((x.registry b).without p) []
  called : ∀ c, (x.registry b).find? p.address = some c → (x.registry b).isQueued p = false →
    (∀ first later, (c.line p.side).waiters = first :: later →
      x.Changes b ((x.registry b).put p.address.handle (c.setLine p.side ⟨later⟩)) [first.waker]) ∧
    ((c.line p.side).waiters = [] → x.Changes b (x.registry b) [])
  gone : (x.registry b).find? p.address = none → x.Changes b (x.registry b) []

theorem Sound.givesUp (sound : x.Sound u) (errand : x.errand? = some (b, .abandon p)) :
    x.GivesUp b p := by
  have changes {r : Registry Waker} {woken : List Waker}
      (state : ((x.registry b).abandon p).state = r)
      (calls : ((x.registry b).abandon p).woken = woken) : x.Changes b r woken := by
    cases stack : x.stack with
    | nil =>
      rw [Executor.errand?, stack] at errand
      cases errand
    | cons f rest =>
      obtain ⟨o, t, change, frames, carried, -, leads⟩ := sound.enters stack errand
      have inside := inside_of_carried carried
      cases effect_of_carried carried
      subst state calls
      exact ⟨registry_set_self inside leads.buses,
        fun b' other => registry_set_ne other leads.buses, _, leads.stack⟩
  refine ⟨(rests_of_abandon errand).silent, fun queued => ?_, fun c found out => ?_, fun gone => ?_⟩
  · have takes := Registry.abandon_eq_without (sound.balanced b) queued
    exact changes (by rw [takes]) (by rw [takes])
  · have called : (x.registry b).hasCalled p = true := by rw [Registry.hasCalled, found, out]; rfl
    obtain ⟨c', found', out'⟩ := Registry.hasCalled_iff.1 called
    cases found.symm.trans found'
    have none := WaitLine.remove?_of_not_mem out'
    have slot := (Registry.find?_eq_some_iff.1 found).1
    refine ⟨fun first later line => ?_, fun line => ?_⟩
    · refine changes ?_ ?_ <;> simp [Registry.abandon, found, none, Channel.wakeFirst,
        WaitLine.wakeFirst, line]
    · refine changes ?_ ?_
      · have same : c.setLine p.side (c.line p.side) = c := by cases p.side <;> rfl
        simp [Registry.abandon, found, none, Channel.wakeFirst, WaitLine.wakeFirst, line, same,
          Registry.put_self slot]
      · simp [Registry.abandon, found, none, Channel.wakeFirst, WaitLine.wakeFirst, line]
  · refine changes ?_ ?_ <;> simp [Registry.abandon, gone]

/-! ### What becomes of a stream -/

/-- Whether a task is about to get another stream. -/
def adopts (x : Executor) (t : Nat) : Bool :=
  match x.stack with
  | .adopt w _ :: _ => w.task = t
  | _ => false

/-- Whether a task is about to look for the next item of its stream. -/
def pollsStream (x : Executor) (t : Nat) : Bool := x.polls.any (·.owner = .stream t)

/-- The stream of a task. -/
def streamOf (x : Executor) (t : Nat) : Option Stream := (x.tasks[t]?).bind (·.stream)

/-- What becomes of the receive of a stream that is dropped: it is given up, or there is none. -/
inductive LeavesStream (x : Executor) (t : Nat) : Prop where
  | free (none : x.placeOf (.stream t) = none) (buses : x.step.buses = x.buses)
  | place {b : Nat} {p : Place} (holds : x.placeOf (.stream t) = some (b, p))
      (errand : x.errand? = some (b, .abandon p))

/-- What a step does to the stream of a task: nothing, unless it is polled, or dropped as it is
replaced by another one or none. -/
inductive StreamGoes (x : Executor) (t : Nat) : Prop where
  | kept (away : x.adopts t = false) (silent : x.pollsStream t = false)
      (same : x.step.streamOf t = x.streamOf t)
  | polled (away : x.adopts t = false) (polled : x.pollsStream t = true)
  | dropped (gone : x.adopts t = true ∨ x.step.streamOf t = none) (leaves : x.LeavesStream t)

variable {task : Task} {w : Waker}

theorem placeOf_of_streamOf {s : Stream} (has : x.streamOf t = some s) :
    x.placeOf (.stream t) = s.place.map (s.bus, ·) := by
  obtain ⟨task, found, stream⟩ := Option.bind_eq_some_iff.1 has
  rw [placeOf, found, Option.bind_some, Task.streamPlace, stream, Option.bind_some]

theorem adopts_of_stack (stack : x.stack = f :: rest) (other : ∀ w s, f ≠ .adopt w s) :
    x.adopts t = false := by
  rw [adopts, stack]
  cases f with
  | adopt w s => exact absurd rfl (other w s)
  | _ => rfl

theorem pollsStream_iff : x.pollsStream t = true ↔ ∃ w rest task, x.stack = .proceed w :: rest ∧
    w.task = t ∧ x.tasks[t]? = some task ∧ task.IsAtStream := by
  rw [pollsStream, List.any_eq_true]
  constructor
  · rintro ⟨poll, member, own⟩
    obtain ⟨w, rest, task, stack, found, rfl⟩ := exists_of_mem_polls member
    have own : task.polled w.task = .stream t := of_decide_eq_true own
    by_cases atStream : task.IsAtStream
    · rw [Task.polled_of_atStream atStream] at own
      cases own
      exact ⟨w, rest, task, stack, rfl, found, atStream⟩
    · rw [Task.polled_of_not_atStream atStream] at own
      cases own
  · rintro ⟨w, rest, task, stack, rfl, found, atStream⟩
    rw [polls_of_proceed stack found, Task.polled_of_atStream atStream]
    exact ⟨_, List.mem_singleton_self _, decide_eq_true rfl⟩

/-- Who is about to do something else neither adopts a stream nor looks at one. -/
theorem StreamGoes.of_tasks (stack : x.stack = f :: rest) (other : ∀ w s, f ≠ .adopt w s)
    (silent : x.pollsStream t = false) (tasks : x.step.tasks = x.tasks) : x.StreamGoes t :=
  .kept (adopts_of_stack stack other) silent (by rw [streamOf, tasks, streamOf])

theorem streamOf_of_modify {t' : Nat} {change : Task → Task}
    (tasks : x.step.tasks = x.tasks.modify t' change)
    (same : ∀ task, x.tasks[t]? = some task → t' = t → (change task).stream = task.stream) :
    x.step.streamOf t = x.streamOf t := by
  rw [streamOf, getElem?_of_modify tasks, streamOf]
  cases found : x.tasks[t]? with
  | none => rfl
  | some task =>
    rw [Option.map_some, Option.bind_some, Option.bind_some]
    split
    · exact same task found ‹_›
    · rfl

theorem StreamGoes.of_modify {t' : Nat} {change : Task → Task} (stack : x.stack = f :: rest)
    (other : ∀ w s, f ≠ .adopt w s) (silent : x.pollsStream t = false)
    (tasks : x.step.tasks = x.tasks.modify t' change)
    (same : ∀ task, x.tasks[t]? = some task → t' = t → (change task).stream = task.stream) :
    x.StreamGoes t :=
  .kept (adopts_of_stack stack other) silent (streamOf_of_modify tasks same)

/-- A stream is dropped as another, or none, is put in its place. -/
theorem Replaces.streamGoes {t' : Nat} {stream : Option Stream} {next : Frame}
    (replaces : x.Replaces f t' stream next) (stack : x.stack = f :: rest)
    (silent : x.pollsStream t = false)
    (tasks : x.step.tasks = x.tasks.modify t' ({ · with stream }))
    (leaves : t' = t → x.LeavesStream t) : x.StreamGoes t := by
  by_cases own : t' = t
  · refine .dropped ?_ (leaves own)
    subst own
    have lost (nothing : stream = none) : x.step.streamOf t' = none := by
      rw [streamOf, getElem?_of_modify tasks, nothing]
      cases x.tasks[t']? <;> simp
    cases replaces with
    | ends _ _ _ => exact .inr (lost rfl)
    | drops _ _ _ => exact .inr (lost rfl)
    | adopts => exact .inl (by rw [Executor.adopts, stack]; exact decide_eq_true rfl)
  · have away : x.adopts t = false := by
      cases replaces with
      | ends _ _ _ => exact adopts_of_stack stack nofun
      | drops _ _ _ => exact adopts_of_stack stack nofun
      | adopts => rw [Executor.adopts, stack]; exact decide_eq_false own
    exact .kept away silent (streamOf_of_modify tasks fun _ _ same => absurd same own)

theorem Quiet.streamGoes {t' : Nat} {change : Task → Task} {frames : List Frame}
    (quiet : x.Quiet f t' change frames) (sound : x.Sound u) (stack : x.stack = f :: rest)
    (silent : x.pollsStream t = false) (buses : x.step.buses = x.buses)
    (tasks : x.step.tasks = x.tasks.modify t' change) : x.StreamGoes t := by
  cases quiet with
  | replaces replaces free =>
    refine replaces.streamGoes stack silent tasks fun own => ?_
    subst own
    exact .free free buses
  | passes idle =>
    refine .of_modify stack ?_ silent tasks fun _ _ _ => rfl
    rintro w s rfl
    exact idle
  | replies own prompt =>
    refine .of_modify stack ?_ silent tasks fun _ _ _ => rfl
    rintro w s rfl
    exact prompt
  | breaksOff found running => exact absurd running (sound.life_of_leave stack found)
  | _ => exact .of_modify stack nofun silent tasks fun _ _ _ => rfl

theorem Forgets.streamGoes {t' : Nat} {change : Task → Task} {frames : List Frame}
    (forgets : x.Forgets f b p t' change frames) (errand : x.errand? = some (b, .abandon p))
    (stack : x.stack = f :: rest) (silent : x.pollsStream t = false)
    (tasks : x.step.tasks = x.tasks.modify t' change) : x.StreamGoes t := by
  cases forgets with
  | stream replaces found holds =>
    refine replaces.streamGoes stack silent tasks fun own => ?_
    subst own
    exact .place (placeOf_stream_iff.2 ⟨_, found, holds⟩) errand
  | @place _ task _ _ _ found places =>
    -- If the task still holds a place for its instruction, it gives up that one first.
    cases call : task.callPlace with
    | none =>
      rw [Task.places, call, Option.toList_none, List.nil_append] at places
      have holds := Option.mem_toList.1 (places ▸ List.mem_cons_self)
      by_cases own : t' = t
      · subst own
        refine .dropped (.inr ?_) (.place (placeOf_stream_iff.2 ⟨_, found, holds⟩) errand)
        rw [streamOf, getElem?_of_modify tasks, found, Option.map_some, if_pos rfl,
          Option.bind_some, Task.giveUpPlace, call]
      · exact .of_modify stack (by simp) silent tasks fun _ _ same => absurd same own
    | some held =>
      refine .of_modify stack (by simp) silent tasks fun task' found' own => ?_
      subst own
      cases found.symm.trans found'
      rw [Task.giveUpPlace, call]

/-- A step does nothing to a stream but that it may be polled, or dropped. -/
theorem Sound.stream_goes (sound : x.Sound u) (t : Nat) : x.StreamGoes t := by
  cases polled : x.pollsStream t with
  | true =>
    obtain ⟨w, rest, -, stack, -⟩ := pollsStream_iff.1 polled
    exact .polled (adopts_of_stack stack nofun) polled
  | false =>
  cases stack : x.stack with
  | nil => exact .kept (by rw [adopts, stack]) polled (by rw [step_of_stack_nil stack])
  | cons f rest =>
    cases x.step_unfolds stack with
    | quiet _ quiet leads => exact quiet.streamGoes sound stack polled leads.buses leads.tasks
    | releases _ leads => exact .of_tasks stack nofun polled leads.tasks
    | polls _ _ _ leads _ => exact .of_tasks stack nofun polled leads.tasks
    | readies _ leads _ _ _ => exact .of_tasks stack nofun polled leads.tasks
    | drains _ _ _ leads _ => exact .of_tasks stack nofun polled leads.tasks
    | enters errand _ sequel leads =>
      cases sequel with
      | @looks _ _ _ _ _ _ out _ _ _ =>
        refine .of_modify stack nofun polled leads.tasks fun _ _ _ => ?_
        rcases out.answer with _ | _ | _ | _ <;> rfl
      | @looksAtStream w task _ _ _ found atStream _ _ _ =>
        refine .of_modify stack nofun polled leads.tasks fun _ _ own => ?_
        subst own
        have polls := pollsStream_iff.2 ⟨w, rest, task, stack, rfl, found, atStream⟩
        cases polled.symm.trans polls
      | resolves _ _ _ remembers =>
        refine .of_modify stack nofun polled leads.tasks fun task _ _ => ?_
        obtain ⟨remembered, same⟩ := remembers task
        rw [same]
      | abandons forgets => exact forgets.streamGoes errand stack polled leads.tasks
      | _ => exact .of_modify stack nofun polled leads.tasks fun _ _ _ => rfl
    | fails errand failed _ _ _ _ => exact absurd failed (sound.carried errand)

end Executor

end MessageBus
