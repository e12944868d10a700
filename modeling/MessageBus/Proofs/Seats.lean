import MessageBus.Proofs.LineOrder
import MessageBus.Proofs.Moments

/-!
# Those who wait in a line

A call that waits has a seat: the instruction of its task, what it asks for, and its place in a line
(`Seat`). The task has its seat from when it parks until it goes on with the call
(`Executor.Occupies`), and nobody else can change that, unless the call is dropped
(`Occupies.step`, `Occupies.ask`).
-/

namespace MessageBus

/-- A call that waits: the instruction of a task, what it asks for, and its place. -/
structure Seat where
  task : Nat
  index : Nat
  request : Request
  place : Place

namespace Executor

/-- Whether a task waits in a call as its seat says, and for nothing else, or is suspended in it or
goes on with it in the middle of a turn. -/
structure Occupies (x : Executor) (b : Nat) (s : Seat) (task : Task) : Prop where
  found : x.tasks[s.task]? = some task
  position : task.position = s.index
  progress : ∃ recorded, task.progress = .calling b s.request (some s.place) recorded
  places : task.places = [(b, s.place)]
  life : task.life = .idle ∨ ∃ f ∈ x.stack, f.turn? = some s.task

variable {u : Usage} {x y : Executor} {f : Frame} {t b : Nat} {s : Seat} {task task' : Task}
  {frames rest : List Frame}

/-! ### Steps of others -/

theorem Stays.suspend_of_own (stays : x.Stays t task) (sound : x.Sound u)
    (others : ¬x.Proceeds t) (stack : x.stack = f :: rest) (own : f.turn? = some t) :
    f = .suspend t := by
  cases f with
  | proceed w => exact absurd ⟨w, rest, stack, Option.some.inj own⟩ others
  | suspend t' => rw [Option.some.inj own]
  | complete caller reply =>
    exact (stays.not_settled sound stack own fun _ suits => suits).elim
  | receive w item => exact (stays.not_settled sound stack own fun _ suits => suits).elim
  | adopt w s => exact (stays.not_settled sound stack own fun _ suits => suits.1).elim
  | conclude w before after b a side result =>
    exact (stays.not_settled sound stack own fun _ suits => suits).elim
  | finish t' =>
    refine (stays.not_settled sound stack own fun task suits => ?_).elim
    have none : task.callPlace.toList = [] := (List.append_eq_nil_iff.1 suits).1
    exact Option.toList_eq_nil_iff.1 none
  | _ => cases own

/-- A task that waits in a call, and does not go on with it, is suspended by the end of its turn,
unless it is dropped. -/
theorem Stays.life_step (stays : x.Stays t task) (sound : x.Sound u) (others : ¬x.Proceeds t)
    (found' : x.step.tasks[t]? = some task') :
    (task'.life = .idle ∨ ∃ f ∈ x.step.stack, f.turn? = some t) ∨
      ∃ rest, x.step.stack = .vacate t :: rest := by
  cases stack : x.stack with
  | nil =>
    rw [step_of_stack_nil stack] at found' ⊢
    cases stays.found.symm.trans found'
    exact .inl stays.life
  | cons f rest =>
    by_cases own : f.turn? = some t
    · obtain rfl := stays.suspend_of_own sound others stack own
      have tasks : x.step.tasks = x.tasks.modify t ({ · with life := .idle }) := by
        rw [step_of_stack_cons stack]
        rfl
      rw [tasks, List.getElem?_modify_eq, stays.found] at found'
      cases found'
      exact .inl (.inl rfl)
    rcases stays.life with idle | ⟨g, member, turn⟩
    · have rests (tasks : x.step.tasks = x.tasks) : task'.life = .idle := by
        rw [tasks, stays.found] at found'
        cases found'
        exact idle
      have others {t' : Nat} {change : Task → Task}
          (tasks : x.step.tasks = x.tasks.modify t' change) (changed : t' = t →
            ((change task).life = .idle ∨ ∃ f ∈ x.step.stack, f.turn? = some t) ∨
              ∃ rest, x.step.stack = .vacate t :: rest) :
          (task'.life = .idle ∨ ∃ f ∈ x.step.stack, f.turn? = some t) ∨
            ∃ rest, x.step.stack = .vacate t :: rest := by
        rw [getElem?_of_modify tasks, stays.found, Option.map_some] at found'
        split at found'
        · rename_i same
          cases found'
          exact changed same
        · cases found'
          exact .inl (.inl idle)
      cases x.step_unfolds stack with
      | quiet _ quiet leads =>
        refine others leads.tasks fun same => ?_
        subst same
        cases quiet with
        | begins _ _ =>
          rw [leads.stack]
          exact .inl (.inr ⟨_, List.mem_cons_self, rfl⟩)
        | drops _ _ _ _ _ =>
          rw [leads.stack]
          exact .inr ⟨_, rfl⟩
        | breaksOff found running =>
          cases stays.found.symm.trans found
          cases idle.symm.trans running
        | suspends | finishes | completes _ | collects _ _ | yields _ _ _ => exact absurd rfl own
        | _ => exact .inl (.inl idle)
      | releases _ leads => exact .inl (.inl (rests leads.tasks))
      | polls _ _ _ leads _ => exact .inl (.inl (rests leads.tasks))
      | readies _ leads _ _ _ => exact .inl (.inl (rests leads.tasks))
      | drains _ _ _ leads _ => exact .inl (.inl (rests leads.tasks))
      | enters _ _ sequel leads =>
        refine others leads.tasks fun same => ?_
        subst same
        obtain ⟨-, -, rfl⟩ := sequel.top_eq.resolve_left own
        exact .inl (.inl ((Task.life_giveUpPlace task).trans idle))
      | fails errand failed _ _ _ _ => exact absurd failed (sound.carried errand)
    · rw [stack] at member
      rcases List.mem_cons.1 member with rfl | below
      · exact absurd turn own
      · obtain ⟨frames, stack', -⟩ := sound.ages_step stack
        rw [stack']
        exact .inl (.inr ⟨g, List.mem_append_right _ below, turn⟩)

namespace Occupies

theorem callPlace (occupies : x.Occupies b s task) : task.callPlace = some (b, s.place) := by
  obtain ⟨recorded, calling⟩ := occupies.progress
  rw [Task.callPlace, calling]

theorem stays (occupies : x.Occupies b s task) : x.Stays s.task task :=
  ⟨occupies.found, by rw [occupies.callPlace]; exact Option.some_ne_none _, occupies.life⟩

theorem placesOf (occupies : x.Occupies b s task) : x.placesOf s.task = [(b, s.place)] := by
  rw [placesOf_of_found occupies.found, occupies.places]

/-- The errand of a task that goes on from its seat. -/
theorem errand? {w : Waker} (occupies : x.Occupies b s task)
    (stack : x.stack = .proceed w :: rest) (own : w.task = s.task) :
    x.errand? = some (b, .look s.request (some s.place) w) := by
  obtain ⟨recorded, calling⟩ := occupies.progress
  have found : x.tasks[w.task]? = some task := own ▸ occupies.found
  rw [Executor.errand?, stack]
  simp only [found, Option.bind_some, taskErrand?, calling]

/-- Nobody but its own task takes a seat away, unless the task is dropped. -/
theorem step (occupies : x.Occupies b s task) (sound : x.Sound u) (underway : x.Underway)
    (others : ¬x.Proceeds s.task) : (∃ task', x.step.Occupies b s task') ∨
      x.step.errand? = some (b, .abandon s.place) := by
  obtain ⟨recorded, calling⟩ := occupies.progress
  have found := occupies.found
  have stays := occupies.stays
  have alive := stays.alive sound
  have kept : False ∨ ∃ task', x.step.tasks[s.task]? = some task' ∧ task'.position = s.index ∧
      task'.places = [(b, s.place)] ∧
        task'.progress = .calling b s.request (some s.place) recorded := by
    refine sound.kept_of_changes found ⟨occupies.position, occupies.places, calling⟩
      (fun f rest change frames stack quiet => ⟨?_, ?_, ?_⟩)
      fun f rest b' e o change frames stack errand sequel => .inl ?_
    · have position := (quiet.keepsPosition underway found).position
      refine (position.resolve_right fun completes => ?_).trans occupies.position
      obtain ⟨w, reply, rfl⟩ := Frame.Completes.exists_reply completes.1
      exact stays.not_settled sound stack completes.2.1 fun _ suits => suits
    · exact (quiet.places sound stack found).trans occupies.places
    · exact (quiet.progress_eq sound stack found calling).trans calling
    · rcases sequel.top_eq with own | ⟨rfl, -, -⟩
      · obtain rfl := stays.suspend_of_own sound others stack own
        rw [Executor.errand?, stack] at errand
        cases errand
      · exact absurd (underway.vacates s.task (stack ▸ List.mem_cons_self) task found) alive
  obtain ⟨task', found', position, places, calling'⟩ := kept.resolve_left id
  rcases stays.life_step sound others found' with life | ⟨rest, stack⟩
  · exact .inl ⟨task', found', position, ⟨recorded, calling'⟩, places, life⟩
  · refine .inr ?_
    rw [Executor.errand?, stack]
    simp only [found', Option.bind_some, Task.placeErrand?, places]
    rfl

theorem ask {q : Step} (occupies : x.Occupies b s task) (sound : x.Sound u) (idle : x.stack = [])
    (lawful : q.Lawful u x.buses.length) : (∃ task', (x.ask q).Occupies b s task') ∨
      (x.ask q).errand? = some (b, .abandon s.place) := by
  have found := occupies.found
  have rests (found' : (x.ask q).tasks[s.task]? = some task) :
      ∃ task', (x.ask q).Occupies b s task' := by
    refine ⟨task, found', occupies.position, occupies.progress, occupies.places, .inl ?_⟩
    refine occupies.life.resolve_right fun ⟨f, member, _⟩ => ?_
    rw [idle] at member
    cases member
  cases x.ask_asked q with
  | answers _ _ leads => exact .inl (rests (leads.tasks ▸ found))
  | runs leads => exact .inl (rests (leads.tasks ▸ found))
  | polls _ _ leads => exact .inl (rests (leads.tasks ▸ found))
  | @drops b' t _ _ _ _ leads =>
    have after := getElem?_of_modify leads.tasks s.task
    rw [found, Option.map_some] at after
    split at after
    · rename_i same
      refine .inr ?_
      rw [Executor.errand?, leads.stack]
      show ((x.ask (.act b' (.drop t))).tasks[t]?).bind (·.placeErrand?) = _
      rw [same] at after ⊢
      rw [after, Option.bind_some]
      show task.placeErrand? = _
      rw [Task.placeErrand?, occupies.places]
      rfl
    · exact .inl (rests after)
  | dropsInUse _ _ _ => exact lawful.elim
  | adds leads => exact .inl (rests (leads.tasks ▸ found))
  | @spawns program stopsOnError leads _ =>
    have tasks : (x.ask (.spawn program stopsOnError)).tasks = _ := leads.tasks
    refine .inl (rests ?_)
    rw [tasks, List.getElem?_append_left (List.getElem?_eq_some_iff.1 found).1, found]
  | operates _ _ leads => exact .inl (rests (leads.tasks ▸ found))
  | fails failed _ _ _ =>
    exact absurd failed (sound.carried_of_free lawful (sound.calm_of_idle idle _) _)

end Occupies

end Executor

end MessageBus
