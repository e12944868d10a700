import MessageBus.Proofs.Effects
import MessageBus.Proofs.Stack

/-!
# Sound executors

An executor is sound if nothing in it can go wrong: every bus that a task turns to is there, a bus
is in use only while the next frame gives it free again, turns end before they are left, the tasks
that are over hold nothing or are about to give it up, and on every bus the lines and the stays that
are held are in balance.

What a step does to a sound executor is said in three parts: one task changes (`Executor.Acts`),
each bus moves on (`Executor.Goes`), and the stack keeps its order.
-/

namespace MessageBus

/-- What a task may be told to do. -/
def Usage.allows (u : Usage) : Deed → Prop
  | .wait _ _ => u.bareWaits
  | .call (.broadcast _) => u.broadcasts
  | _ => True

/-- An instruction that turns to one of `n` buses, for something that is allowed. -/
def Instruction.Sound (u : Usage) (n : Nat) (i : Instruction) : Prop := i.bus < n ∧ u.allows i.deed

/-- What is kept of an instruction turns to one of `n` buses as well. -/
def Progress.Sound (u : Usage) (n : Nat) : Progress → Prop
  | .calling bus q _ _ => bus < n ∧ u.permits (some q)
  | .waiting bus _ _ _ => bus < n
  | _ => True

structure Task.Sound (u : Usage) (n : Nat) (t : Task) : Prop where
  program : ∀ i ∈ t.program, i.Sound u n
  progress : t.progress.Sound u n
  stream : ∀ s ∈ t.stream, s.bus < n

namespace Task

variable {u : Usage} {n b : Nat} {task : Task} {s : Stay}

theorem inside_of_callStay (sound : task.Sound u n) (holds : task.callStay = some (b, s)) :
    b < n := by
  have progress := sound.progress
  rw [callStay] at holds
  cases current : task.progress with
  | calling bus q prior recorded =>
    rw [current] at holds progress
    obtain ⟨p, -, same⟩ := Option.map_eq_some_iff.1 holds
    cases same
    exact progress.1
  | waiting bus p before after =>
    rw [current] at holds progress
    cases holds
    exact progress
  | _ =>
    rw [current] at holds
    cases holds

theorem inside_of_streamStay (sound : task.Sound u n) (holds : task.streamStay = some (b, s)) :
    b < n := by
  rw [streamStay] at holds
  obtain ⟨stream, there, place⟩ := Option.bind_eq_some_iff.1 holds
  obtain ⟨p, -, same⟩ := Option.map_eq_some_iff.1 place
  cases same
  exact sound.stream stream there

end Task

namespace Executor

structure Sound (u : Usage) (x : Executor) : Prop where
  free : ∀ b, x.isInUse b = true → x.stack.head? = some (.release b)
  stacked : InOrder x.buses.length x.tasks x.stack
  tasks : ∀ task ∈ x.tasks, task.Sound u x.buses.length
  vacated : ∀ t task, x.tasks[t]? = some task → task.life = .ended →
    task.places = [] ∨ .vacate t ∈ x.stack
  balanced : ∀ b, (x.registry b).Balanced (x.staysOn b)
  permitted : ∀ b, ∀ s ∈ x.staysOn b, u.permits s.request

/-- Every bus makes a move, or none. The calls that go on, each on its bus and from its place, are
those that `resumed` holds of. -/
def Goes (u : Usage) (resumed : Nat → Request → Place → Prop) (x y : Executor) : Prop :=
  ∀ b, ∃ held held', (x.staysOn b).Perm held ∧
    (x.registry b).Moves u (resumed b) held (y.registry b) held' ∧ held'.Perm (y.staysOn b)

/-- One task changes, and at most one bus with it. -/
inductive Acts (u : Usage) (resumed : Nat → Request → Place → Prop) (x y : Executor)
    (task task' : Task) : Prop where
  | alone (buses : y.buses = x.buses) (stays : ∀ b, task'.staysOn b = task.staysOn b)
  | enters {b r'} (inside : b < x.buses.length) (buses : y.buses = x.buses.set b ⟨r', true⟩)
      (top : y.stack.head? = some (.release b))
      (moves : ∀ held, (x.registry b).Moves u (resumed b) (task.staysOn b ++ held) r'
        (task'.staysOn b ++ held))
      (others : ∀ b', b' ≠ b → task'.staysOn b' = task.staysOn b')

variable {u : Usage} {resumed : Nat → Request → Place → Prop} {x y : Executor} {t b : Nat}
  {task task' : Task} {f : Frame} {rest : List Frame}

/-- No operation is going on unless it is just about to end. -/
theorem Sound.calm (sound : x.Sound u) (stack : x.stack = f :: rest) (other : ∀ b, f ≠ .release b)
    (b : Nat) : x.isInUse b = false := by
  cases inUse : x.isInUse b
  · rfl
  · have top := sound.free b inUse
    rw [stack] at top
    cases top
    exact absurd rfl (other b)

theorem exists_bus (inside : b < x.buses.length) (free : x.isInUse b = false) :
    ∃ bus, x.buses[b]? = some bus ∧ bus.inUse = false ∧ bus.registry = x.registry b := by
  have found := List.getElem?_eq_getElem inside
  refine ⟨_, found, ?_, (registry_of_bus found).symm⟩
  rw [isInUse, found] at free
  exact free

theorem registry_of_buses (buses : y.buses = x.buses) (b : Nat) : y.registry b = x.registry b := by
  rw [registry, buses]
  rfl

theorem registry_set_self {bus : SharedBus} (inside : b < x.buses.length)
    (buses : y.buses = x.buses.set b bus) : y.registry b = bus.registry := by
  rw [registry, buses, List.getElem?_set_self inside]
  rfl

theorem registry_set_ne {bus : SharedBus} {b' : Nat} (other : b' ≠ b)
    (buses : y.buses = x.buses.set b bus) : y.registry b' = x.registry b' := by
  rw [registry, buses, List.getElem?_set_ne (Ne.symm other)]
  rfl

theorem isInUse_set_ne {bus : SharedBus} {b' : Nat} (other : b' ≠ b)
    (buses : y.buses = x.buses.set b bus) : y.isInUse b' = x.isInUse b' := by
  rw [isInUse, buses, List.getElem?_set_ne (Ne.symm other)]
  rfl

theorem Goes.balanced (goes : Goes u resumed x y) (sound : x.Sound u) (b : Nat) :
    (y.registry b).Balanced (y.staysOn b) := by
  obtain ⟨held, held', before, moves, after⟩ := goes b
  exact (moves.balanced ((sound.balanced b).perm before)).perm after

theorem Goes.permitted (goes : Goes u resumed x y) (sound : x.Sound u) (b : Nat) :
    ∀ s ∈ y.staysOn b, u.permits s.request := by
  obtain ⟨held, held', before, moves, after⟩ := goes b
  have allowed := moves.permitted fun s member => sound.permitted b s (before.mem_iff.2 member)
  exact fun s member => allowed s (after.mem_iff.2 member)

/-- Where neither a bus nor a stay changes, nothing happens. -/
theorem goes_of_same (registry : ∀ b, y.registry b = x.registry b)
    (stays : ∀ b, (x.staysOn b).Perm (y.staysOn b)) : Goes u resumed x y := by
  intro b
  refine ⟨x.staysOn b, x.staysOn b, .refl _, ?_, stays b⟩
  rw [registry b]
  exact .rest _ _

theorem Acts.goes (acts : Acts u resumed x y task task') (found : x.tasks[t]? = some task)
    (tasks : y.tasks = x.tasks.set t task') : Goes u resumed x y := by
  have before := x.staysOn_perm found
  have after := fun b => (staysOn_set_perm found tasks b).symm
  intro b
  refine ⟨_, _, before b, ?_, after b⟩
  cases acts with
  | alone buses stays =>
    rw [stays b, registry_of_buses buses]
    exact .rest _ _
  | @enters b' r' inside buses top moves others =>
    by_cases same : b = b'
    · subst same
      rw [registry_set_self inside buses]
      exact moves _
    · rw [others b same, registry_set_ne same buses]
      exact .rest _ _

theorem Acts.free (acts : Acts u resumed x y task task') (calm : ∀ b, x.isInUse b = false) :
    ∀ b, y.isInUse b = true → y.stack.head? = some (.release b) := by
  intro b inUse
  cases acts with
  | alone buses _ =>
    rw [isInUse, buses] at inUse
    cases (calm b).symm.trans inUse
  | @enters b' _ _ buses top _ _ =>
    by_cases same : b = b'
    · exact same ▸ top
    · rw [isInUse_set_ne same buses, calm b] at inUse
      cases inUse

theorem Acts.length_buses (acts : Acts u resumed x y task task') :
    y.buses.length = x.buses.length := by
  cases acts with
  | alone buses _ => rw [buses]
  | enters _ buses _ _ _ => rw [buses, List.length_set]

/-- A step in which one task changes keeps an executor sound, as long as the stack keeps its
order. -/
theorem Sound.change (sound : x.Sound u) (calm : ∀ b, x.isInUse b = false)
    (found : x.tasks[t]? = some task) (tasks : y.tasks = x.tasks.set t task')
    (acts : Acts u resumed x y task task') (kept : task'.Sound u x.buses.length)
    (vacated : task'.life = .ended → task'.places = [] ∨ .vacate t ∈ y.stack)
    (vacates : ∀ t', t' ≠ t → .vacate t' ∈ x.stack → .vacate t' ∈ y.stack)
    (stacked : InOrder y.buses.length y.tasks y.stack) : y.Sound u ∧ Goes u resumed x y := by
  have goes := acts.goes found tasks
  refine ⟨⟨acts.free calm, stacked, ?_, ?_, goes.balanced sound, goes.permitted sound⟩, goes⟩
  · intro other member
    rw [acts.length_buses]
    rw [tasks] at member
    rcases List.mem_or_eq_of_mem_set member with old | rfl
    · exact sound.tasks other old
    · exact kept
  · intro t' other found' ended
    rw [tasks, List.getElem?_set] at found'
    by_cases same : t = t'
    · subst same
      obtain ⟨inside, -⟩ := List.getElem?_eq_some_iff.1 found
      rw [if_pos rfl, if_pos inside] at found'
      cases found'
      exact vacated ended
    · rw [if_neg same] at found'
      rcases sound.vacated t' other found' ended with none | vacates'
      · exact .inl none
      · exact .inr (vacates t' (Ne.symm same) vacates')

/-- A task that is left next is not running any more: no turn of a sound executor is broken
off. -/
theorem Sound.life_of_leave (sound : x.Sound u) (stack : x.stack = .leave t :: rest)
    (found : x.tasks[t]? = some task) : task.life ≠ .running := by
  rcases sound.stacked with stacked | ⟨t', task', below, stack', found', stopped, -⟩
  · rw [stack] at stacked
    cases stacked with
    | aside aside _ => exact aside.elim
    | turn own _ _ _ _ _ => cases own
  · rw [stack] at stack'
    cases stack'
    cases found.symm.trans found'
    exact stopped

end Executor

end MessageBus
