import MessageBus.Proofs.Effort.Growth
import Mathlib.Algebra.BigOperators.Ring.List

/-!
# How many steps at most

The five numbers of `Executor.effort` become one (`Executor.potential`) where each is weighed by
more than what those that count less can grow in a step. With every step there is less of it
(`potential_step_lt`), so an executor that has a potential of `n` comes to an end in `n` steps.

What the numbers can come to depends on few quantities that do not grow while nothing is asked from
outside (`Executor.IsWithin`): the number of tasks, the slots together with the work that may open
channels, and the messages that an instruction carries. All of them are seen in the size of an
executor, so that `Executor.enough` small steps are more than any request of a run needs
(`Reachable.settles`).
-/

namespace MessageBus

/-! ### What a request carries -/

/-- What the request of a task carries, one of its instructions carries as well. -/
def Task.IsLaden (task : Task) : Prop :=
  ∀ b q prior recorded, task.progress = .calling b q prior recorded →
    ∃ i ∈ task.program, q.cargo ≤ Executor.size.weight i.deed

theorem Executor.size.weight_pos (deed : Deed) : 0 < weight deed := by
  rw [weight.eq_def]
  split <;> omega

theorem Operation.cargo_le (op : Operation) :
    op.cargo ≤ Executor.size.weight (.act (.operate op)) := by
  cases op with
  | trySendMany h ms => exact Nat.le_add_left _ _
  | _ => exact Nat.le_refl 1

theorem Call.cargo_le {ω : Type} {r : Registry ω} {c : Call} {q : Request}
    (resolved : c.resolve r = .ok q) : q.cargo ≤ Executor.size.weight (.call c) := by
  have named {h : Handle} {request : Address → Request} {n : Nat}
      (resolved : (r.resolve h).map request = .ok q) (few : ∀ a, (request a).cargo ≤ n) :
      q.cargo ≤ n := by
    cases found : r.resolve h with
    | error e =>
      rw [found] at resolved
      cases resolved
    | ok a =>
      rw [found] at resolved
      cases resolved
      exact few a
  cases c with
  | send h m => exact named resolved fun _ => Nat.le_refl 1
  | sendMany h ms => exact named resolved fun _ => Nat.le_add_left _ _
  | recv h => exact named resolved fun _ => Nat.le_refl 1
  | recvMany h limit => exact named resolved fun _ => Nat.le_refl 1
  | broadcast m =>
    cases resolved
    exact Nat.le_refl 1

namespace Executor

variable {u : Usage} {x y : Executor} {f : Frame} {t b n : Nat} {task : Task} {w : Waker}
  {e : Errand Waker} {o : Outcome (Registry Waker) Waker Upshot} {change : Task → Task}
  {frames rest : List Frame}

theorem Pursues.exists_weight {q : Request} {prior : Option Place} {recorded : Bool}
    (pursues : x.Pursues task b q prior recorded) (laden : task.IsLaden) :
    ∃ i ∈ task.program, q.cargo ≤ size.weight i.deed := by
  cases pursues with
  | calling progress => exact laden _ _ _ _ progress
  | call _ current resolved =>
    exact ⟨_, List.mem_of_getElem? current, Call.cargo_le resolved⟩
  | recvFrom _ current _ => exact ⟨_, List.mem_of_getElem? current, size.weight_pos _⟩

/-- Whether each task is at a request that one of its instructions stands for. -/
def IsLaden (x : Executor) : Prop := ∀ task ∈ x.tasks, task.IsLaden

theorem CallStep.isLaden {task' : Task} (step : x.CallStep t task task')
    (program : task'.program = task.program) (laden : task.IsLaden) : task'.IsLaden := by
  intro b q prior recorded progress
  rw [program]
  cases step with
  | same progress' => exact laden b q prior recorded (progress'.symm.trans progress)
  | quits away => exact absurd progress (away b q prior recorded)
  | looked _ _ pursues progress' _ =>
    cases progress'.symm.trans progress
    exact pursues.exists_weight laden

theorem Reachable.isLaden (reachable : x.Reachable u) : x.IsLaden := by
  obtain ⟨inline, run⟩ := reachable
  induction run with
  | refl => exact fun task member => by cases member
  | @tail x y run next ih =>
    have sound := Reachable.sound ⟨inline, run⟩
    intro task' member
    obtain ⟨t, found'⟩ := List.getElem?_of_mem member
    cases next with
    | step =>
      obtain ⟨task, found, step, -⟩ := step_task found'
      obtain ⟨task'', after, program, -⟩ := sound.kept_step found
      cases found'.symm.trans after
      exact step.isLaden program (ih task (List.mem_of_getElem? found))
    | ask idle lawful =>
      rcases sound.cleared.ask_tasks idle lawful t with ⟨change, after, changes⟩ | ⟨-, _, _, new⟩
      · rw [after] at found'
        obtain ⟨task, found, rfl⟩ := Option.map_eq_some_iff.1 found'
        have laden := ih task (List.mem_of_getElem? found)
        rcases changes task with same | same <;> rw [same] <;> exact laden
      · cases new.symm.trans found'
        exact fun _ _ _ _ => Progress.noConfusion

/-! ### What does not grow -/

/-- An executor with at most `n` tasks, with at most as many slots on each bus, also after all that
is left of the instructions, and with at most as many messages for an instruction. -/
structure IsWithin (n : Nat) (x : Executor) : Prop where
  tasks : x.tasks.length ≤ n
  slots : ∀ b, (x.registry b).slots.length + x.work ≤ n
  weights : ∀ task ∈ x.tasks, ∀ i ∈ task.program, size.weight i.deed ≤ n
  pos : 0 < n

theorem Eases.work_le (eases : x.Eases y) : y.work ≤ x.work := by
  cases eases with
  | works work => exact Nat.le_of_lt work
  | takes work _ | hears work _ _ | queues work _ _ _ | chores work _ _ _ _ => exact work

/-- An operation ends its instruction. -/
theorem Sound.work_step_lt (sound : x.Sound u) {op : Operation}
    (errand : x.errand? = some (b, .operate op)) : x.step.work < x.work := by
  cases stack : x.stack with
  | nil =>
    rw [errand?, stack] at errand
    cases errand
  | cons f rest =>
    obtain ⟨_, _, _, _, -, sequel, leads⟩ := sound.enters stack errand
    cases sequel with
    | operates found _ _ _ =>
      have work := work_modify_le [_, _, _, _] stack leads.stack found leads.tasks
      simp only [List.map_cons, List.map_nil, List.sum_cons, List.sum_nil, Frame.work, id] at work
      omega

theorem Sound.length_tasks_step (sound : x.Sound u) : x.step.tasks.length = x.tasks.length := by
  cases stack : x.stack with
  | nil => rw [step_of_stack_nil stack]
  | cons f rest =>
    cases x.step_unfolds stack with
    | quiet _ _ leads => rw [leads.tasks, List.length_modify]
    | releases _ leads => rw [leads.tasks]
    | polls _ _ _ leads _ | readies _ leads _ _ _ | drains _ _ _ leads _ =>
      exact congrArg List.length leads.tasks
    | enters _ _ _ leads => rw [leads.tasks, List.length_modify]
    | fails errand failed _ _ _ _ => exact absurd failed (sound.carried errand)

theorem IsWithin.slots_step (within : x.IsWithin n) (sound : x.Sound u)
    (eases : x.Eases x.step) (b : Nat) : (x.step.registry b).slots.length + x.step.work ≤ n := by
  have slots := within.slots b
  have work := eases.work_le
  cases errand : x.errand? with
  | none =>
    have same : x.step.registry b = x.registry b := by
      rw [registry_step, errand]
      rfl
    rw [same]
    omega
  | some entry =>
    obtain ⟨b', e⟩ := entry
    rcases registry_of_errand errand b with same | ⟨rfl, o, ran, left⟩
    · rw [same]
      omega
    · rw [left]
      rcases Errand.length_slots_le ran with fewer | ⟨⟨op, rfl⟩, one⟩
      · omega
      · have less := sound.work_step_lt errand
        omega

theorem IsWithin.step (within : x.IsWithin n) (sound : x.Sound u) (eases : x.Eases x.step) :
    x.step.IsWithin n where
  tasks := sound.length_tasks_step ▸ within.tasks
  slots := within.slots_step sound eases
  weights task' member := by
    obtain ⟨t, found'⟩ := List.getElem?_of_mem member
    obtain ⟨task, found, -, -⟩ := step_task found'
    obtain ⟨task'', after, program, -⟩ := sound.kept_step found
    cases found'.symm.trans after
    rw [program]
    exact within.weights task (List.mem_of_getElem? found)
  pos := within.pos

/-! ### What grows -/

theorem unheard_le (x : Executor) : x.unheard ≤ 2 * x.tasks.length :=
  sum_map_le_mul fun _ _ => Nat.sub_le _ _

theorem unqueued_le (x : Executor) : x.unqueued ≤ 3 * x.tasks.length := by
  refine sum_map_le_mul fun task _ => ?_
  have yields : task.mayYield ≤ 1 := by
    rw [Task.mayYield]
    split <;> omega
  exact Nat.add_le_add (Nat.sub_le _ _) yields

/-- What a task carries on an errand, one of its instructions carries as well. -/
theorem Sequel.cargo_le (sequel : x.Sequel f b e o t change frames) (within : x.IsWithin n)
    (laden : x.IsLaden) : e.cargo ≤ n := by
  cases sequel with
  | operates found _ current _ =>
    exact (Operation.cargo_le _).trans
      (within.weights _ (List.mem_of_getElem? found) _ (List.mem_of_getElem? current))
  | looks found pursues _ =>
    have member := List.mem_of_getElem? found
    obtain ⟨i, inside, few⟩ := pursues.exists_weight (laden _ member)
    exact few.trans (within.weights _ member i inside)
  | looksAtStream _ _ _ _ _ => exact within.pos
  | _ => exact Nat.zero_le n

theorem Sound.load_step_le (sound : x.Sound u) (arises : x.Arises) (within : x.IsWithin n)
    (after : x.step.IsWithin n) (laden : x.IsLaden) : x.step.load ≤ x.load + n * n := by
  have same (buses : x.step.buses = x.buses) : x.step.load ≤ x.load + n * n := by
    rw [load, load, buses]
    exact Nat.le_add_right _ _
  cases stack : x.stack with
  | nil => exact same (by rw [step_of_stack_nil stack])
  | cons f rest =>
    cases x.step_unfolds stack with
    | quiet _ _ leads => exact same leads.buses
    | releases _ leads =>
      rw [load_release leads.buses]
      exact Nat.le_add_right _ _
    | polls _ _ _ leads _ | readies _ leads _ _ _ | drains _ _ _ leads _ => exact same leads.buses
    | @enters _ b e o _ _ _ _ carried sequel leads =>
      have inside := inside_of_carried carried
      have ran := effect_of_carried carried
      have ident := arises.identified b
      have set := load_set_le inside leads.buses
      have slots := within.slots b
      have slots' : o.state.slots.length + x.step.work ≤ n := by
        have slots' := after.slots b
        rwa [registry_set_self inside leads.buses] at slots'
      have few (id : ChannelId) : (sentTo id o.answer.transfers).length ≤ n :=
        (Errand.length_sentTo_le ident ran id).trans (sequel.cargo_le within laden)
      have grown := (e.flows ident ran).load_le (n := n) (by omega) (by omega) few
      omega
    | fails errand failed _ _ _ _ => exact absurd failed (sound.carried errand)

theorem Quiet.chores_le (quiet : x.Quiet f t change frames) :
    (frames.map (·.chores)).sum ≤ 12 := by
  cases quiet with
  | replaces replaces _ => cases replaces <;> simp [Frame.chores]
  | _ => simp [Frame.chores]

theorem Sequel.chores_le (sequel : x.Sequel f b e o t change frames) :
    (frames.map (·.chores)).sum ≤ 7 := by
  cases sequel with
  | @looks _ _ _ _ _ _ p _ _ _ =>
    rcases p.answer with _ | _ | _ | _ <;> simp [Turn.frame, Frame.chores]
  | @looksAtStream w task _ _ p _ _ _ _ _ =>
    have pending : ([task.ifPending w].map (·.chores)).sum ≤ 7 := by
      rw [Task.ifPending]
      split <;> simp [Frame.chores]
    rcases p.answer with ⟨_ | _⟩ | _ | _ | _
    case parked => exact pending
    case waiting => exact pending
    all_goals simp [Turn.streamFrame, Frame.chores]
  | abandons forgets =>
    cases forgets with
    | stream replaces _ _ => cases replaces <;> simp [Frame.chores]
    | place _ _ => simp [Frame.chores]
  | _ => simp [Frame.chores]

theorem chores_access (b : Nat) (wakers : List Waker) (notes : List Note) (frames : List Frame) :
    ((Frame.release b :: .wake wakers :: .tell notes :: frames).map (·.chores)).sum =
      10 * wakers.length + 3 + (frames.map (·.chores)).sum := by
  show 1 + (10 * wakers.length + 1 + (1 + (frames.map (·.chores)).sum)) = _
  omega

theorem Sound.chores_step_le (sound : x.Sound u) (within : x.IsWithin n) :
    x.step.chores ≤ x.chores + (20 * n + 12) := by
  have tasks := within.tasks
  have less (less : x.step.chores < x.chores) : x.step.chores ≤ x.chores + (20 * n + 12) :=
    Nat.le_add_right_of_le (Nat.le_of_lt less)
  cases stack : x.stack with
  | nil =>
    rw [step_of_stack_nil stack]
    exact Nat.le_add_right _ _
  | cons f rest =>
    cases x.step_unfolds stack with
    | quiet _ quiet leads =>
      have chores := chores_append _ stack leads.stack leads.ready
      have few := quiet.chores_le
      omega
    | releases _ leads => exact less (chores_release_lt stack leads.stack leads.ready)
    | polls _ _ _ leads _ => exact less (chores_poll_lt stack leads.stack leads.ready)
    | readies _ leads ready _ _ => exact less (chores_ready_lt stack leads.stack ready)
    | drains _ ready alive leads ready' =>
      exact less (chores_drain_lt stack leads.stack ready ready' (alive.imp_right (·.1)))
    | @enters _ _ _ o _ _ frames _ carried sequel leads =>
      have chores := chores_append (_ :: _ :: _ :: frames) stack leads.stack leads.ready
      have few := sequel.chores_le
      have woken := sound.length_woken_le (effect_of_carried carried)
      rw [chores_access] at chores
      omega
    | fails errand failed _ _ _ _ => exact absurd failed (sound.carried errand)

/-! ### One number -/

/-- A number in which the first counts more than all that the second grows by in a step. -/
def weigh (k major minor : Nat) : Nat := (k + 1) * major + minor

theorem weigh_lt_of_lt {k a a' c c' : Nat} (less : a' < a) (grown : c' ≤ c + k) :
    weigh k a' c' < weigh k a c := by
  have product := Nat.mul_le_mul_left (k + 1) less
  rw [Nat.mul_succ] at product
  rw [weigh, weigh]
  omega

theorem weigh_lt_of_le {k a a' c c' : Nat} (le : a' ≤ a) (less : c' < c) :
    weigh k a' c' < weigh k a c :=
  Nat.add_lt_add_of_le_of_lt (Nat.mul_le_mul_left _ le) less

theorem weigh_le {k a a' c c' : Nat} (le : a' ≤ a) (le' : c' ≤ c) :
    weigh k a' c' ≤ weigh k a c :=
  Nat.add_le_add (Nat.mul_le_mul_left _ le) le'

/-- How many steps are left, at most, to an executor within `n`. -/
def potential (n : Nat) (x : Executor) : Nat :=
  weigh (20 * n + 12)
    (weigh (3 * n) (weigh (2 * n) (weigh (n * n) x.work x.load) x.unheard) x.unqueued) x.chores

theorem Reachable.potential_step_lt (reachable : x.Reachable u) (within : x.IsWithin n)
    (some : x.stack ≠ []) : x.step.potential n < x.potential n := by
  have sound := reachable.sound
  have eases := sound.eases_step reachable.underway some
  have after := within.step sound eases
  have load := sound.load_step_le reachable.arises within after reachable.isLaden
  have unheard : x.step.unheard ≤ x.unheard + 2 * n :=
    (x.step.unheard_le.trans (Nat.mul_le_mul_left 2 after.tasks)).trans (Nat.le_add_left _ _)
  have unqueued : x.step.unqueued ≤ x.unqueued + 3 * n :=
    (x.step.unqueued_le.trans (Nat.mul_le_mul_left 3 after.tasks)).trans (Nat.le_add_left _ _)
  have chores := sound.chores_step_le within
  cases eases with
  | works work =>
    exact weigh_lt_of_lt (weigh_lt_of_lt (weigh_lt_of_lt (weigh_lt_of_lt work load) unheard)
      unqueued) chores
  | takes work load =>
    exact weigh_lt_of_lt (weigh_lt_of_lt (weigh_lt_of_lt (weigh_lt_of_le work load) unheard)
      unqueued) chores
  | hears work load unheard =>
    exact weigh_lt_of_lt (weigh_lt_of_lt (weigh_lt_of_le (weigh_le work load) unheard) unqueued)
      chores
  | queues work load unheard unqueued =>
    exact weigh_lt_of_lt (weigh_lt_of_le (weigh_le (weigh_le work load) unheard) unqueued) chores
  | chores work load unheard unqueued chores =>
    exact weigh_lt_of_le (weigh_le (weigh_le (weigh_le work load) unheard) unqueued) chores

/-- An executor comes to an end within its potential. -/
theorem Reachable.stack_settle {fuel : Nat} (reachable : x.Reachable u) (within : x.IsWithin n)
    (enough : x.potential n ≤ fuel) : (Executor.settle fuel x).stack = [] := by
  induction fuel generalizing x with
  | zero =>
    by_contra some
    have less := reachable.potential_step_lt within some
    omega
  | succ fuel ih =>
    rw [settle_succ]
    split
    · rename_i idle
      exact List.isEmpty_iff.1 idle
    · rename_i some
      have some : x.stack ≠ [] := fun idle => some (List.isEmpty_iff.2 idle)
      have less := reachable.potential_step_lt within some
      have eases := reachable.sound.eases_step reachable.underway some
      exact ih (reachable.next .step) (within.step reachable.sound eases) (by omega)

/-! ### The size of an executor -/

theorem length_program_le (task : Task) :
    task.program.length ≤ size.total (task.program.map (size.weight ·.deed)) :=
  length_le_sum_map fun i _ => size.weight_pos i.deed

theorem Task.work_le (task : Task) :
    task.work ≤ 5 * (1 + size.total (task.program.map (size.weight ·.deed))) := by
  have program := length_program_le task
  have places := task.length_places_le
  rw [Task.work]
  split <;> omega

theorem work_le_size (x : Executor) : x.work ≤ 5 * x.size := by
  have tasks : (x.tasks.map (·.work)).sum ≤ 5 * size.total
      (x.tasks.map fun task => 1 + size.total (task.program.map (size.weight ·.deed))) := by
    refine (List.sum_le_sum fun task _ => Task.work_le task).trans (Nat.le_of_eq ?_)
    exact List.sum_map_mul_left _ _ 5
  have frames : (x.stack.map (·.work)).sum ≤ 2 * x.stack.length := by
    refine sum_map_le_mul fun f _ => ?_
    rw [Frame.work.eq_def]
    split <;> omega
  rw [work, size]
  omega

theorem le_total_of_mem {m : Nat} {parts : List Nat} (member : m ∈ parts) : m ≤ size.total parts :=
  List.le_sum_of_mem member

theorem length_slots_le_size (x : Executor) (b : Nat) :
    (x.registry b).slots.length ≤ x.size := by
  cases there : x.buses[b]? with
  | none =>
    rw [registry, there]
    exact Nat.zero_le _
  | some bus =>
    have part := le_total_of_mem (List.mem_map_of_mem
      (f := fun bus : SharedBus => bus.registry.slots.length + size.total (bus.registry.channels.map
        fun c => c.size + c.senders.size + c.receivers.size)) (List.mem_of_getElem? there))
    rw [registry_of_bus there, size]
    omega

theorem weight_le_size (member : task ∈ x.tasks) {i : Instruction} (inside : i ∈ task.program) :
    size.weight i.deed ≤ x.size := by
  have instruction := le_total_of_mem (List.mem_map_of_mem (f := (size.weight ·.deed)) inside)
  have part := le_total_of_mem (List.mem_map_of_mem
    (f := fun task : Task => 1 + size.total (task.program.map (size.weight ·.deed))) member)
  rw [size]
  omega

theorem length_tasks_le_size (x : Executor) : x.tasks.length ≤ x.size := by
  have parts : x.tasks.length ≤ size.total
      (x.tasks.map fun task => 1 + size.total (task.program.map (size.weight ·.deed))) :=
    length_le_sum_map fun _ _ => Nat.le_add_right 1 _
  rw [size]
  omega

theorem load_le_channels (r : Registry Waker) : r.load ≤
    size.total (r.channels.map fun c => c.size + c.senders.size + c.receivers.size) := by
  rw [Registry.load, sum_map_getD]
  exact List.sum_le_sum fun c _ => Nat.le_add_right_of_le (Nat.le_add_right _ _)

theorem load_le_size (x : Executor) : x.load ≤ x.size := by
  have buses : x.load ≤ size.total (x.buses.map fun bus => bus.registry.slots.length +
      size.total (bus.registry.channels.map fun c => c.size + c.senders.size + c.receivers.size)) :=
    List.sum_le_sum fun bus _ => (load_le_channels bus.registry).trans (Nat.le_add_left _ _)
  rw [size]
  omega

/-- An executor is within eight times its size. -/
theorem isWithin_size (x : Executor) : x.IsWithin (8 * (x.size + 2)) where
  tasks := x.length_tasks_le_size.trans (by omega)
  slots b := by
    have slots := x.length_slots_le_size b
    have work := x.work_le_size
    omega
  weights task member i inside := (weight_le_size member inside).trans (by omega)
  pos := by omega

/-- What is put on the stack for a request makes few chores. -/
theorem Sound.chores_ask_le (sound : x.Sound u) (idle : x.stack = []) {s : Step}
    (lawful : s.Lawful u x.buses.length) : (x.ask s).chores ≤
      9 * (x.ask s).ready.length + 20 * (x.ask s).tasks.length + 9 := by
  have few (frames : List Frame) (stack : (x.ask s).stack = frames ++ x.stack)
      (chores : (frames.map (·.chores)).sum ≤ 20 * (x.ask s).tasks.length + 9) :
      (x.ask s).chores ≤ 9 * (x.ask s).ready.length + 20 * (x.ask s).tasks.length + 9 := by
    rw [Executor.chores, stack, idle, List.append_nil]
    omega
  cases x.ask_asked s with
  | answers _ answer leads =>
    refine few _ leads.stack ?_
    rcases answer with rfl | ⟨reply, rfl⟩
    · exact Nat.zero_le _
    · exact (Nat.le_add_left 1 8).trans (Nat.le_add_left _ _)
  | runs leads => exact few [_] leads.stack (by simp [Frame.chores])
  | polls _ _ leads => exact few [_, _] leads.stack (by simp [Frame.chores])
  | drops _ _ leads => exact few [_, _] leads.stack (by simp [Frame.chores])
  | dropsInUse _ _ _ => exact lawful.elim
  | adds leads => exact few [] leads.stack (Nat.zero_le _)
  | spawns leads _ => exact few [] leads.stack (Nat.zero_le _)
  | @operates b op o _ carried leads =>
    have woken : o.woken.length ≤ 2 * x.tasks.length :=
      sound.length_woken_le (effect_of_carried carried)
    refine few [_, _, _, _] leads.stack ?_
    rw [chores_access, leads.tasks]
    simp only [List.map_cons, List.map_nil, List.sum_cons, List.sum_nil, Frame.chores]
    omega
  | fails failed _ _ _ =>
    exact absurd failed (sound.carried_of_free lawful (sound.calm_of_idle idle _) _)

/-- Products of such bounds are bounds of this kind. -/
theorem weigh_le_pow {k a c d e g i j : Nat} (weight : k + 1 ≤ d * n ^ i)
    (major : a ≤ e * n ^ j) (minor : c ≤ g * n) (some : 0 < i + j) :
    weigh k a c ≤ (d * e + g) * n ^ (i + j) := by
  have first : (k + 1) * a ≤ d * e * n ^ (i + j) := by
    calc (k + 1) * a
        ≤ d * n ^ i * (e * n ^ j) := Nat.mul_le_mul weight major
      _ = d * e * n ^ (i + j) := by rw [Nat.pow_add, Nat.mul_mul_mul_comm]
  have second : c ≤ g * n ^ (i + j) :=
    minor.trans (Nat.mul_le_mul_left g (Nat.le_self_pow some.ne' n))
  rw [weigh, Nat.add_mul (d * e)]
  exact Nat.add_le_add first second

theorem potential_le (within : x.IsWithin n) (load : x.load ≤ n) (chores : x.chores ≤ 42 * n) :
    x.potential n ≤ 2048 * n ^ 6 := by
  have pos := within.pos
  have tasks := within.tasks
  have slots := within.slots 0
  have itself : n ^ 1 = n := Nat.pow_one n
  have square : n * n = n ^ 2 := (Nat.pow_two n).symm
  have pos' : 0 < n ^ 2 := Nat.pow_pos pos
  have unheard := x.unheard_le
  have unqueued := x.unqueued_le
  have first : weigh (n * n) x.work x.load ≤ (2 * 1 + 1) * n ^ (2 + 1) :=
    weigh_le_pow (by omega) (by omega) (by omega) (by omega)
  have second := weigh_le_pow (k := 2 * n) (c := x.unheard) (d := 3) (g := 2) (i := 1)
    (by omega) first (by omega) (by omega)
  have third := weigh_le_pow (k := 3 * n) (c := x.unqueued) (d := 4) (g := 3) (i := 1)
    (by omega) second (by omega) (by omega)
  have fourth := weigh_le_pow (k := 20 * n + 12) (c := x.chores) (d := 33) (g := 42) (i := 1)
    (by omega) third chores (by omega)
  exact fourth.trans (Nat.mul_le_mul_right _ (by decide))

/-- Whatever is asked for in a run, everything that comes of it is done in the end. -/
theorem Reachable.settles (reachable : x.Reachable u) (idle : x.stack = []) {s : Step}
    (lawful : s.Lawful u x.buses.length) : (x.carryOut s).stack = [] := by
  have asked := reachable.next (.ask idle lawful)
  have chores := reachable.sound.cleared.chores_ask_le idle lawful
  rw [carryOut]
  generalize ({ x with log := [], answer := none } : Executor).ask s = y at asked chores
  refine asked.stack_settle y.isWithin_size (potential_le y.isWithin_size ?_ ?_)
  · exact y.load_le_size.trans (by omega)
  · have tasks := y.length_tasks_le_size
    have ready : y.ready.length ≤ y.size := by
      rw [size]
      omega
    omega

/-- Where nothing is left to do, it does not matter after how many steps. -/
theorem settle_eq_of_idle {m : Nat} (idle : (settle m x).stack = [])
    (idle' : (settle n x).stack = []) : settle m x = settle n x := by
  rcases Nat.le_total m n with le | le
  · obtain ⟨k, rfl⟩ := Nat.exists_eq_add_of_le le
    rw [settle_add, settle_of_stack_nil idle]
  · obtain ⟨k, rfl⟩ := Nat.exists_eq_add_of_le le
    rw [settle_add, settle_of_stack_nil idle']

theorem Reachable.carryOut_eq (reachable : x.Reachable u) (idle : x.stack = []) {s : Step}
    (lawful : s.Lawful u x.buses.length)
    (done : (Executor.settle n ({ x with log := [], answer := none }.ask s)).stack = []) :
    x.carryOut s = Executor.settle n ({ x with log := [], answer := none }.ask s) :=
  settle_eq_of_idle (reachable.settles idle lawful) done

end Executor

end MessageBus
