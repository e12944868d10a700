import MessageBus.Proofs.Holdings
import MessageBus.Proofs.Lists

/-!
# What an access leaves

Of an executor, the buses, the tasks and the stack matter for waiting. What is told, recorded or
answered changes none of them. An access to a bus that is free takes it into use, puts the new
registry there, and leaves three frames on top of whatever comes next.
-/

namespace MessageBus.Executor

variable {α : Type} {x : Executor} {b t : Nat}

@[simp] theorem buses_tellOne (x : Executor) (n : Note) : (x.tellOne n).buses = x.buses := by
  rw [tellOne]
  split <;> rfl

@[simp] theorem tasks_tellOne (x : Executor) (n : Note) : (x.tellOne n).tasks = x.tasks := by
  rw [tellOne]
  split <;> rfl

@[simp] theorem stack_tellOne (x : Executor) (n : Note) : (x.tellOne n).stack = x.stack := by
  rw [tellOne]
  split <;> rfl

/-- Observers change nothing that matters for waiting. -/
theorem tell_same (x : Executor) (notes : List Note) : (x.tell notes).buses = x.buses ∧
    (x.tell notes).tasks = x.tasks ∧ (x.tell notes).stack = x.stack := by
  induction notes generalizing x with
  | nil => exact ⟨rfl, rfl, rfl⟩
  | cons n notes ih =>
    obtain ⟨buses, tasks, stack⟩ := ih (x.tellOne n)
    exact ⟨buses.trans (buses_tellOne x n), tasks.trans (tasks_tellOne x n),
      stack.trans (stack_tellOne x n)⟩

theorem withTask_of_found {task : Task} (found : x.tasks[t]? = some task)
    (go : Task → Executor) : x.withTask t go = go task := by
  rw [withTask, found]
  rfl

theorem withTask_of_none (none : x.tasks[t]? = none) (go : Task → Executor) :
    x.withTask t go = x := by
  rw [withTask, none]
  rfl

/-- What holds of an executor without the task, and of all that is done with the task, holds of what
is done with it if it is there. -/
theorem withTask_cases {motive : Executor → Prop} {go : Task → Executor}
    (missing : x.tasks[t]? = none → motive x)
    (there : ∀ task, x.tasks[t]? = some task → motive (go task)) : motive (x.withTask t go) := by
  cases found : x.tasks[t]? with
  | none =>
    rw [withTask_of_none found]
    exact missing found
  | some task =>
    rw [withTask_of_found found]
    exact there task found

/-- What is done next changes one task at most, and puts frames on the stack. -/
def Does (go : Executor → Executor) (t : Nat) (change : Task → Task) (frames : List Frame) : Prop :=
  ∀ x, (go x).buses = x.buses ∧ (go x).tasks = x.tasks.modify t change ∧
    (go x).stack = frames ++ x.stack

theorem does_push (t : Nat) (frames : List Frame) : Does (·.push frames) t id frames :=
  fun x => ⟨rfl, (List.modify_id t x.tasks).symm, rfl⟩

theorem access_of_free {bus : SharedBus}
    {f : Registry Waker → Except Fault (Outcome (Registry Waker) Waker α)}
    {o : Outcome (Registry Waker) Waker α} (next : α → Executor → Executor)
    {change : Task → Task} {frames : List Frame} (found : x.buses[b]? = some bus)
    (free : bus.inUse = false) (ran : f bus.registry = .ok o)
    (does : Does (next o.answer) t change frames) :
    (x.access b f next).buses = x.buses.set b ⟨o.state, true⟩ ∧
      (x.access b f next).tasks = x.tasks.modify t change ∧
      (x.access b f next).stack =
        .release b :: .wake o.woken :: .tell o.afterwards :: (frames ++ x.stack) := by
  let entered : Executor := { x with buses := x.buses.set b ⟨o.state, true⟩ }
  obtain ⟨buses, tasks, stack⟩ := entered.tell_same o.notes
  obtain ⟨buses', tasks', stack'⟩ := does (entered.tell o.notes)
  have accessed : x.access b f next = (next o.answer (entered.tell o.notes)).push
      [.release b, .wake o.woken, .tell o.afterwards] := by
    rw [access, found]
    simp only [free, ran, Bool.false_eq_true, ite_false, entered]
  rw [accessed]
  refine ⟨buses'.trans buses, tasks'.trans ?_, ?_⟩
  · rw [tasks]
  · rw [push, stack', stack]
    rfl

end MessageBus.Executor
