import MessageBus.Proofs.Effort

/-!
# Every step leaves less to do

For each thing that a step can do there is one of the five numbers that gets less, while those that
count more do not grow (`Sound.eases_step`). Most steps end an instruction or take up fewer chores.
The others are those of a task that finds its condition false, or yields.
-/

namespace MessageBus

/-! ### One task -/

namespace Task

variable {task task' : Task} {queued queued' : Nat × Place → Bool}
  {prior news others : List (Nat × Place)}

theorem length_places_le (task : Task) : task.places.length ≤ 2 := by
  rw [places, List.length_append]
  have call := task.callPlace.length_toList_le
  have stream := task.streamPlace.length_toList_le
  omega

theorem work_of_running (running : task.life = .running) :
    task.work = 3 + 3 * (task.program.length - task.position) := by
  rw [work, running]

theorem work_of_idle (idle : task.life = .idle) :
    task.work = 5 + 3 * (task.program.length - task.position) := by
  rw [work, idle]

theorem work_of_ended (ended : task.life = .ended) : task.work = task.places.length := by
  rw [work, ended]

theorem work_advance_lt (running : task.life = .running) (underway : task.IsUnderway)
    (reply : Reply) : (task.advance reply).work + 3 ≤ task.work := by
  have running' : (task.advance reply).life = .running := running
  rw [work_of_running running, work_of_running running']
  rw [IsUnderway] at underway
  have further : task.position + 1 ≤ (task.advance reply).position := by
    unfold advance
    dsimp only
    split
    · exact underway
    · exact Nat.le_refl _
  have program : (task.advance reply).program = task.program := rfl
  rw [program]
  omega

theorem unqueued_le_of_kept (task : Task)
    (kept : ∀ held, queued held = true → queued' held = true) :
    task.unqueued queued' ≤ task.unqueued queued :=
  Nat.sub_le_sub_left (List.countP_mono_left fun held _ => kept held) 2

/-- Whoever keeps those of its places that are in line still has as few left to take. -/
theorem unqueued_le (before : task.places.Perm (prior ++ others))
    (after : task'.places.Perm (news ++ others)) (count : prior.countP queued ≤ news.countP queued')
    (kept : ∀ held, queued held = true → queued' held = true) :
    task'.unqueued queued' ≤ task.unqueued queued := by
  have rest := List.countP_mono_left (l := others) fun held _ => kept held
  rw [unqueued, unqueued, before.countP_eq, after.countP_eq, List.countP_append,
    List.countP_append]
  omega

/-- Whoever gets into a line has one place less to take. -/
theorem unqueued_lt (before : task.places.Perm (prior ++ others))
    (after : task'.places.Perm (news ++ others)) (out : prior.countP queued = 0)
    (new : 0 < news.countP queued') (kept : ∀ held, queued held = true → queued' held = true) :
    task'.unqueued queued' < task.unqueued queued := by
  have rest := List.countP_mono_left (l := others) fun held _ => kept held
  have few := task'.length_places_le
  have bound := List.countP_le_length (p := queued) (l := others)
  have bound' := List.countP_le_length (p := queued') (l := news)
  rw [after.length_eq, List.length_append] at few
  rw [unqueued, unqueued, before.countP_eq, after.countP_eq, List.countP_append,
    List.countP_append]
  omega

end Task

theorem Frame.chores_pos (f : Frame) : 0 < f.chores := by
  cases f <;> simp [chores]

namespace Executor

variable {u : Usage} {x y : Executor} {f : Frame} {t b : Nat} {task : Task} {e : Errand Waker}
  {change : Task → Task} {frames rest : List Frame}

/-! ### The numbers after a step -/

theorem sum_work_append (stack : x.stack = f :: rest) (stack' : y.stack = frames ++ rest) :
    (y.stack.map (·.work)).sum + f.work =
      (x.stack.map (·.work)).sum + (frames.map (·.work)).sum := by
  rw [stack, stack', List.map_append, List.sum_append, List.map_cons, List.sum_cons]
  omega

theorem chores_append (frames : List Frame) (stack : x.stack = f :: rest)
    (stack' : y.stack = frames ++ rest) (ready : y.ready = x.ready) :
    y.chores + f.chores = x.chores + (frames.map (·.chores)).sum := by
  rw [chores, chores, stack, stack', ready, List.map_append, List.sum_append, List.map_cons,
    List.sum_cons]
  omega

theorem work_modify_le (frames : List Frame) (stack : x.stack = f :: rest)
    (stack' : y.stack = frames ++ rest) (found : x.tasks[t]? = some task)
    (tasks : y.tasks = x.tasks.modify t change) :
    y.work + (task.work + f.work) ≤
      x.work + ((change task).work + (frames.map (·.work)).sum) := by
  have own := sum_map_set_le (f := (·.work)) (g := (·.work)) (fun _ _ => Nat.le_refl _) found
    (change task)
  have frames := sum_work_append stack stack'
  rw [work, work, tasks, modify_of_getElem? found]
  omega

theorem isQueued_of_registry (registry : ∀ b, y.registry b = x.registry b) :
    y.isQueued = x.isQueued :=
  funext fun held => congrArg (·.isQueued held.2) (registry held.1)

theorem isHeard_of_isQueued {held : Nat × Place} (queued : x.isQueued held = true →
    y.isQueued held = true) (heard : x.isHeard held = true) : y.isHeard held = true := by
  rw [isHeard, Bool.and_eq_true] at heard ⊢
  exact ⟨heard.1, queued heard.2⟩

theorem unheard_modify_le (kept : ∀ held, x.isHeard held = true → y.isHeard held = true)
    (found : x.tasks[t]? = some task) (tasks : y.tasks = x.tasks.modify t change) :
    y.unheard + task.unqueued x.isHeard ≤ x.unheard + (change task).unqueued y.isHeard := by
  rw [unheard, unheard, tasks, modify_of_getElem? found]
  exact sum_map_set_le (fun task _ => task.unqueued_le_of_kept kept) found _

theorem unqueued_modify_le (kept : ∀ held, x.isQueued held = true → y.isQueued held = true)
    (found : x.tasks[t]? = some task) (tasks : y.tasks = x.tasks.modify t change) :
    y.unqueued + (task.unqueued x.isQueued + task.mayYield) ≤
      x.unqueued + ((change task).unqueued y.isQueued + (change task).mayYield) := by
  rw [unqueued, unqueued, tasks, modify_of_getElem? found]
  exact sum_map_set_le (f := fun task => task.unqueued x.isQueued + task.mayYield)
    (g := fun task => task.unqueued y.isQueued + task.mayYield)
    (fun task _ => Nat.add_le_add_right (task.unqueued_le_of_kept kept) _) found _

theorem load_set_le {r : Registry Waker} {inUse : Bool} (inside : b < x.buses.length)
    (buses : y.buses = x.buses.set b ⟨r, inUse⟩) :
    y.load + (x.registry b).load ≤ x.load + r.load := by
  have there := List.getElem?_eq_getElem inside
  have set := sum_map_set_le (f := fun bus : SharedBus => bus.registry.load)
    (fun _ _ => Nat.le_refl _) there ⟨r, inUse⟩
  rw [load, load, buses, registry_of_bus there]
  exact set

/-! ### Kinds of steps -/

theorem eases_of_work (frames : List Frame) (stack : x.stack = f :: rest)
    (stack' : y.stack = frames ++ rest) (found : x.tasks[t]? = some task)
    (tasks : y.tasks = x.tasks.modify t change)
    (less : (change task).work + (frames.map (·.work)).sum < task.work + f.work) : x.Eases y := by
  have work := work_modify_le _ stack stack' found tasks
  exact .works (by omega)

/-- Nothing but the stack, the ready list and the buses in use changes. -/
theorem eases_of_chores (frames : List Frame) (stack : x.stack = f :: rest)
    (stack' : y.stack = frames ++ rest) (tasks : y.tasks = x.tasks)
    (registry : ∀ b, y.registry b = x.registry b)
    (load : y.load ≤ x.load) (work : (frames.map (·.work)).sum ≤ f.work)
    (chores : y.chores < x.chores) : x.Eases y := by
  have works : y.work ≤ x.work := by
    have frames := sum_work_append stack stack'
    rw [Executor.work, Executor.work, tasks]
    omega
  have queued := isQueued_of_registry registry
  have heard : y.isHeard = x.isHeard := by
    funext held
    rw [isHeard, isHeard, queued]
  refine .chores works load (Nat.le_of_eq ?_) (Nat.le_of_eq ?_) chores
  · rw [unheard, unheard, tasks, heard]
  · rw [unqueued, unqueued, tasks, queued]

/-- One task changes, and keeps its places. -/
theorem eases_of_same_places (leads : x.Leads y x.buses (x.tasks.modify t change) (frames ++ rest))
    (stack : x.stack = f :: rest) (found : x.tasks[t]? = some task)
    (work : (change task).work + (frames.map (·.work)).sum ≤ task.work + f.work)
    (places : (change task).places = task.places)
    (less : (change task).mayYield < task.mayYield ∨ (change task).mayYield ≤ task.mayYield ∧
      (frames.map (·.chores)).sum < f.chores) : x.Eases y := by
  have works := work_modify_le _ stack leads.stack found leads.tasks
  have load : y.load ≤ x.load := by
    rw [load, load, leads.buses]
  have queued := isQueued_of_registry (registry_of_buses leads.buses)
  have unheards := unheard_modify_le
    (fun held => isHeard_of_isQueued (y := y) (by rw [queued]; exact id)) found leads.tasks
  have unqueueds := unqueued_modify_le (y := y) (fun held => by rw [queued]; exact id) found
    leads.tasks
  have heard : y.isHeard = x.isHeard := by
    funext held
    rw [isHeard, isHeard, queued]
  rw [heard, Task.unqueued, Task.unqueued, places] at unheards
  rw [queued, Task.unqueued, Task.unqueued, places] at unqueueds
  rcases less with yields | ⟨yields, fewer⟩
  · exact .queues (by omega) load (by omega) (by omega)
  · have chores := chores_append _ stack leads.stack leads.ready
    exact .chores (by omega) load (by omega) (by omega) (by omega)

/-! ### No bus is entered -/

theorem Task.work_of_same {task task' : Task} (life : task'.life = task.life)
    (program : task'.program = task.program) (position : task'.position = task.position)
    (places : task'.places = task.places) : task'.work = task.work := by
  rw [Task.work, Task.work, life, program, position, places]

/-- A task that loses its stream or gets another one has come further. -/
theorem Replaces.work_lt {stream : Option Stream} {next : Frame}
    (replaces : x.Replaces f t stream next) : f.turn? = some t ∧ next.work < f.work := by
  cases replaces <;> exact ⟨rfl, by simp [Frame.work]⟩

theorem Quiet.eases (sound : x.Sound u) (underway : x.Underway) (stack : x.stack = f :: rest)
    (quiet : x.Quiet f t change frames)
    (leads : x.Leads y x.buses (x.tasks.modify t change) (frames ++ rest)) : x.Eases y := by
  have found_of_turn {g : Frame} {t : Nat} (stack : x.stack = g :: rest)
      (own : g.turn? = some t) :
      ∃ task, x.tasks[t]? = some task ∧ task.life = .running := by
    obtain ⟨task, below, -, turn⟩ := sound.inTurn stack own
    exact ⟨task, turn.found, turn.running⟩
  have places (task : Task) (found : x.tasks[t]? = some task) := quiet.places sound stack found
  have same (task : Task) (found : x.tasks[t]? = some task)
      (life : (change task).life = task.life) (program : (change task).program = task.program)
      (position : (change task).position = task.position) : (change task).work ≤ task.work :=
    Nat.le_of_eq (Task.work_of_same life program position (places task found))
  cases quiet with
  | passes _ =>
    rw [List.modify_id] at leads
    have chores := chores_append _ stack leads.stack leads.ready
    have some := f.chores_pos
    refine eases_of_chores _ stack leads.stack leads.tasks (registry_of_buses leads.buses)
      (Nat.le_of_eq ?_) (Nat.zero_le _) ?_
    · rw [load, load, leads.buses]
    · simp only [List.map_nil, List.sum_nil] at chores
      omega
  | begins found idle =>
    have running : ∀ task : Task, ({ task with life := .running } : Task).life = .running :=
      fun _ => rfl
    refine eases_of_same_places leads stack found ?_ (places _ found) (.inr ⟨Nat.le_refl _, ?_⟩)
    · rw [Task.work_of_idle idle, Task.work_of_running (running _)]
      simp only [List.map_cons, List.map_nil, List.sum_cons, List.sum_nil, Frame.work]
      omega
    · simp [Frame.chores]
  | breaksOff found running => exact absurd running (sound.life_of_leave stack found)
  | observes found progress =>
    refine eases_of_same_places leads stack found ?_ (places _ found) (.inr ⟨?_, ?_⟩)
    · exact Nat.add_le_add (same _ found rfl rfl rfl) (by simp [Frame.work])
    · simp [Task.mayYield]
    · simp [Frame.chores]
  | suspends =>
    obtain ⟨task, found, running⟩ := found_of_turn stack rfl
    have idle : ∀ task : Task, ({ task with life := .idle } : Task).life = .idle := fun _ => rfl
    refine eases_of_same_places leads stack found ?_ (places _ found) (.inr ⟨Nat.le_refl _, ?_⟩)
    · rw [Task.work_of_running running, Task.work_of_idle (idle _)]
      simp only [List.map_nil, List.sum_nil, Frame.work]
      omega
    · simp [Frame.chores]
  | finishes =>
    obtain ⟨task, found, running⟩ := found_of_turn stack rfl
    have ended : ∀ task : Task, ({ task with life := .ended } : Task).life = .ended := fun _ => rfl
    refine eases_of_work _ stack leads.stack found leads.tasks ?_
    have few := task.length_places_le
    rw [Task.work_of_running running, Task.work_of_ended (ended _), places _ found]
    simp only [List.map_nil, List.sum_nil]
    omega
  | @completes w reply _ _ =>
    obtain ⟨task, found, running⟩ := found_of_turn stack rfl
    have top : Frame.complete (.task w) reply ∈ x.stack := stack ▸ List.mem_cons_self
    have further := Task.work_advance_lt running (underway.within _ top trivial _ task rfl found)
      reply
    refine eases_of_work _ stack leads.stack found leads.tasks ?_
    simp only [List.map_cons, List.map_nil, List.sum_cons, List.sum_nil, Frame.work]
    omega
  | collects found _ =>
    refine eases_of_same_places leads stack found ?_ (places _ found) (.inr ⟨?_, ?_⟩)
    · exact Nat.add_le_add (same _ found rfl rfl rfl) (by simp [Frame.work])
    · simp [Task.mayYield]
    · simp [Frame.chores]
  | @replies _ w reply own prompt =>
    obtain ⟨task, found, running⟩ := found_of_turn stack own
    cases f with
    | proceed _ =>
      exact eases_of_work _ stack leads.stack found leads.tasks (by simp [Frame.work])
    | receive _ item =>
      refine eases_of_work _ stack leads.stack found leads.tasks ?_
      cases item <;> simp [Frame.work]
    | conclude _ _ _ _ _ _ _ =>
      refine eases_of_same_places leads stack found (Nat.le_refl _) rfl (.inr ⟨Nat.le_refl _, ?_⟩)
      simp [Frame.chores]
    | _ => exact prompt.elim
  | yields found fresh _ =>
    refine eases_of_same_places leads stack found ?_ (places _ found) (.inl ?_)
    · exact Nat.add_le_add (same _ found rfl rfl rfl) (by simp [Frame.work])
    · simp [Task.mayYield, fresh]
  | streamEnds found _ _ _ =>
    exact eases_of_work _ stack leads.stack found leads.tasks (by simp [Frame.work])
  | @drops _ _ _ t other _ _ _ _ found idle =>
    have ended : ∀ task : Task, ({ task with life := .ended } : Task).life = .ended := fun _ => rfl
    refine eases_of_work _ stack leads.stack found leads.tasks ?_
    have few := other.length_places_le
    rw [Task.work_of_idle idle, Task.work_of_ended (ended _), places _ found]
    simp only [List.map_cons, List.map_nil, List.sum_cons, List.sum_nil, Frame.work]
    omega
  | replaces replaces _ =>
    obtain ⟨own, less⟩ := replaces.work_lt
    obtain ⟨task, found, running⟩ := found_of_turn stack own
    exact eases_of_work _ stack leads.stack found leads.tasks
      (Nat.add_lt_add_of_le_of_lt (same _ found rfl rfl rfl) (by simpa using less))

end Executor

end MessageBus
