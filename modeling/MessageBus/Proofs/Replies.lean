import MessageBus.Proofs.Moments

/-!
# What an instruction comes to

Once the reply to an instruction is there, its task is told it, once, and goes on to another
instruction. Nothing that happens to the task can change that (`Executor.Replied.step`).
-/

namespace MessageBus.Executor

variable {u : Usage} {x : Executor} {t i : Nat} {reply : Reply} {told : List Reply} {w : Waker}
  {rest : List Frame} {s : Step}

/-- Whether an instruction of a task came to a reply, and what the task has been told of it: nothing
yet, or the reply. -/
inductive Replied (x : Executor) (t i : Nat) (reply : Reply) : List Reply → Prop where
  | pending {task : Task} {w : Waker} (found : x.tasks[t]? = some task) (here : task.position = i)
      (own : w.task = t) (tells : .complete (.task w) reply ∈ x.stack) : Replied x t i reply []
  | told {task : Task} (found : x.tasks[t]? = some task) (past : i < task.position) :
    Replied x t i reply [reply]

theorem replyTo_of_stack_nil (stack : x.stack = []) : x.replyTo t i = [] := by
  rw [replyTo, stack]

namespace Replied

theorem step (replied : x.Replied t i reply told) (sound : x.Sound u) (underway : x.Underway) :
    x.step.Replied t i reply (told ++ x.replyTo t i) := by
  cases stack : x.stack with
  | nil =>
    rw [step_of_stack_nil stack, replyTo_of_stack_nil stack, List.append_nil]
    exact replied
  | cons f rest =>
    cases replied with
    | @pending task w found here own tells =>
      subst own
      rw [stack] at tells
      rcases List.mem_cons.1 tells with rfl | later
      · obtain ⟨found', -⟩ := step_complete stack found
        have within := underway.within (.complete (.task w) reply) (stack ▸ List.mem_cons_self)
          trivial w.task task rfl found
        rw [replyTo_of_complete stack found here]
        exact .told found' (here ▸ Task.lt_position_advance within reply)
      · have other : f.turn? ≠ some w.task := fun own => sound.turn_below stack own later rfl
        obtain ⟨task', found', stays⟩ := sound.kept_beside underway stack found other
        obtain ⟨frames, stack', -⟩ := sound.ages_step stack
        rw [replyTo_of_other stack other]
        exact .pending found' (stays.position.trans here) rfl
          (stack' ▸ List.mem_append_right _ later)
    | @told task found past =>
      rw [replyTo_of_ne found (Nat.ne_of_gt past), List.append_nil]
      by_cases own : f.turn? = some t
      · obtain ⟨task', found', -, past'⟩ := sound.past_step underway stack found own past
        exact .told found' past'
      · obtain ⟨task', found', stays⟩ := sound.kept_beside underway stack found own
        exact .told found' (stays.position ▸ past)

theorem ask (replied : x.Replied t i reply told) (sound : x.Sound u) (idle : x.stack = [])
    (lawful : s.Lawful u x.buses.length) :
    ({ x with log := [], answer := none }.ask s).Replied t i reply told := by
  cases replied with
  | pending _ _ _ tells =>
    rw [idle] at tells
    cases tells
  | told found past =>
    rcases sound.cleared.kept_ask idle lawful found with same | ended
    · exact .told same past
    · exact .told ended past

/-- When nothing is left to do the task has been told. -/
theorem told_eq (replied : x.Replied t i reply told) (idle : x.stack = []) : told = [reply] := by
  cases replied with
  | pending _ _ _ tells =>
    rw [idle] at tells
    cases tells
  | told _ _ => rfl

/-- Its task does not go on with it. -/
theorem not_proceeds (replied : x.Replied t i reply told) (sound : x.Sound u)
    (stack : x.stack = .proceed w :: rest) (own : w.task = t) : x.isAt t i = false := by
  cases replied with
  | pending found here own' tells =>
    rw [stack] at tells
    rcases List.mem_cons.1 tells with same | later
    · cases same
    · exact (sound.turn_below stack (congrArg some own) later (congrArg some own')).elim
  | told found past =>
    rw [← Bool.not_eq_true, isAt_iff found]
    exact Nat.ne_of_gt past

end Replied

end MessageBus.Executor
