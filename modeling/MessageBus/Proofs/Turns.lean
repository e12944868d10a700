import MessageBus.Proofs.Soundness

/-!
# The steps of a turn

While a task is in the middle of a turn, the frame on top of the stack is its own. Whatever it does
there comes to one of two things: it changes what the task keeps, and perhaps enters a bus, and the
turn goes on with another frame of the task (`InTurn.goesOn`, `InTurn.access`); or the task is
suspended or over, and the turn ends (`InTurn.ends`).
-/

namespace MessageBus

/-- A change of task leaves it as sound and as much alive as it was. -/
structure Task.Keeps (u : Usage) (n : Nat) (task task' : Task) : Prop where
  sound : task'.Sound u n
  life : task'.life = task.life

namespace Executor

variable {α : Type} {u : Usage} {resumed : Nat → Request → Place → Prop} {x y : Executor}
  {t b : Nat} {task task' : Task} {f next : Frame} {frames asides rest : List Frame}

/-- The task `t` is in the middle of a turn and goes on with the frame `f`. -/
structure InTurn (u : Usage) (x : Executor) (f : Frame) (t : Nat) (task : Task)
    (rest : List Frame) : Prop where
  sound : x.Sound u
  stack : x.stack = f :: .leave t :: rest
  own : f.turn? = some t
  found : x.tasks[t]? = some task
  running : task.life = .running
  suits : f.Suits x.buses.length task
  once : .leave t ∉ rest
  below : Stacked x.buses.length x.tasks rest

/-- Whoever has a frame on top of the stack is in the middle of a turn. -/
theorem Sound.inTurn (sound : x.Sound u) (stack : x.stack = f :: frames)
    (own : f.turn? = some t) :
    ∃ task rest, frames = .leave t :: rest ∧ x.InTurn u f t task rest := by
  rcases sound.stacked with stacked | ⟨_, _, _, stack', _⟩
  · rw [stack] at stacked
    cases stacked with
    | aside aside _ => exact absurd aside (Frame.not_isAside_of_turn own)
    | @turn _ t' task rest own' found running suits once below =>
      cases own.symm.trans own'
      exact ⟨task, rest, rfl, sound, stack, own, found, running, suits, once, below⟩
  · rw [stack] at stack'
    cases stack'
    cases own

namespace InTurn

theorem calm (turn : x.InTurn u f t task rest) (b : Nat) : x.isInUse b = false := by
  refine turn.sound.calm turn.stack (fun b same => ?_) b
  have own := turn.own
  rw [same] at own
  cases own

theorem task_sound (turn : x.InTurn u f t task rest) : task.Sound u x.buses.length :=
  turn.sound.tasks task (List.mem_of_getElem? turn.found)

theorem vacates (turn : x.InTurn u f t task rest) {t' : Nat} (vacate : .vacate t' ∈ x.stack) :
    .vacate t' ∈ rest := by
  rw [turn.stack] at vacate
  rcases List.mem_cons.1 vacate with same | vacate
  · have own := turn.own
    rw [← same] at own
    cases own
  · rcases List.mem_cons.1 vacate with same | vacate
    · cases same
    · exact vacate

/-- The turn goes on. -/
theorem goesOn (turn : x.InTurn u f t task rest) (tasks : y.tasks = x.tasks.set t task')
    (acts : x.Acts u resumed y task task') (keeps : task.Keeps u x.buses.length task')
    (stack : y.stack = asides ++ next :: .leave t :: rest) (aside : ∀ g ∈ asides, g.IsAside)
    (own : next.turn? = some t) (suits : next.Suits x.buses.length task') :
    y.Sound u ∧ Goes u resumed x y := by
  have running : task'.life = .running := keeps.life.trans turn.running
  obtain ⟨inside, -⟩ := List.getElem?_eq_some_iff.1 turn.found
  refine turn.sound.change turn.calm turn.found tasks acts keeps.sound (fun ended => ?_)
    (fun t' _ vacate => ?_) (.inl ?_)
  · cases running.symm.trans ended
  · rw [stack]
    have later := turn.vacates vacate
    exact List.mem_append_right _ (List.mem_cons_of_mem _ (List.mem_cons_of_mem _ later))
  · have below : Stacked x.buses.length (x.tasks.set t task') rest :=
      turn.below.set turn.found fun begun => absurd begun turn.once
    rw [stack, tasks, acts.length_buses]
    refine .asides aside (.turn own ?_ running suits turn.once below)
    rw [List.getElem?_set_self inside]

/-- The turn ends. -/
theorem ends (turn : x.InTurn u f t task rest) (tasks : y.tasks = x.tasks.set t task')
    (acts : x.Acts u resumed y task task') (sound : task'.Sound u x.buses.length)
    (stack : y.stack = .leave t :: rest) (stopped : task'.life ≠ .running)
    (vacated : task'.life = .ended → task'.places = []) : y.Sound u ∧ Goes u resumed x y := by
  obtain ⟨inside, -⟩ := List.getElem?_eq_some_iff.1 turn.found
  refine turn.sound.change turn.calm turn.found tasks acts sound (fun ended => .inl (vacated ended))
    (fun t' _ vacate => ?_) (.inr ⟨t, task', rest, stack, ?_, stopped, ?_⟩)
  · rw [stack]
    exact List.mem_cons_of_mem _ (turn.vacates vacate)
  · rw [tasks, List.getElem?_set_self inside]
  · rw [tasks, acts.length_buses]
    exact turn.below.set turn.found fun begun => absurd begun turn.once

/-- The executor from which the frame on top was taken off. -/
abbrev after (_ : x.InTurn u f t task rest) : Executor := { x with stack := .leave t :: rest }

theorem tasks_modify (turn : x.InTurn u f t task rest) (change : Task → Task) :
    x.tasks.modify t change = x.tasks.set t (change task) :=
  modify_of_getElem? turn.found change

/-- The turn goes on without entering a bus. -/
theorem alone (turn : x.InTurn u f t task rest) (asides : List Frame)
    {go : Executor → Executor} {change : Task → Task}
    (does : Does go t change (asides ++ [next])) (aside : ∀ g ∈ asides, g.IsAside)
    (own : next.turn? = some t) (suits : next.Suits x.buses.length (change task))
    (keeps : task.Keeps u x.buses.length (change task))
    (stays : ∀ b, (change task).staysOn b = task.staysOn b) :
    (go turn.after).Sound u ∧ Goes u resumed x (go turn.after) := by
  obtain ⟨buses, tasks, stack⟩ := does turn.after
  rw [List.append_assoc] at stack
  exact turn.goesOn (tasks.trans (turn.tasks_modify change)) (.alone buses stays) keeps stack aside
    own suits

/-- The turn goes on with an access to a bus. -/
theorem access (turn : x.InTurn u f t task rest) (asides : List Frame)
    {g : Registry Waker → Except Fault (Outcome (Registry Waker) Waker α)}
    {o : Outcome (Registry Waker) Waker α} {after : α → Executor → Executor}
    {change : Task → Task} (inside : b < x.buses.length) (ran : g (x.registry b) = .ok o)
    (does : Does (after o.answer) t change (asides ++ [next])) (aside : ∀ g ∈ asides, g.IsAside)
    (own : next.turn? = some t) (suits : next.Suits x.buses.length (change task))
    (keeps : task.Keeps u x.buses.length (change task))
    (moves : ∀ held, (x.registry b).Moves u (resumed b) (task.staysOn b ++ held) o.state
      ((change task).staysOn b ++ held))
    (others : ∀ b', b' ≠ b → (change task).staysOn b' = task.staysOn b') :
    (turn.after.access b g after).Sound u ∧ Goes u resumed x (turn.after.access b g after) := by
  obtain ⟨bus, there, free, registry⟩ := exists_bus inside (turn.calm b)
  obtain ⟨buses, tasks, stack⟩ :=
    access_of_free (x := turn.after) after there free (registry ▸ ran) does
  have acts : x.Acts u resumed (turn.after.access b g after) task (change task) :=
    .enters inside buses (by rw [stack]; rfl) moves others
  rw [List.append_assoc, ← List.cons_append, ← List.cons_append, ← List.cons_append] at stack
  refine turn.goesOn (tasks.trans (turn.tasks_modify change)) acts keeps stack (fun g member => ?_)
    own suits
  rcases List.mem_cons.1 member with rfl | member
  · rfl
  rcases List.mem_cons.1 member with rfl | member
  · rfl
  rcases List.mem_cons.1 member with rfl | member
  · rfl
  · exact aside g member

end InTurn

end Executor

end MessageBus
