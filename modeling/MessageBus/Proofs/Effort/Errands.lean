import MessageBus.Proofs.Effort.Steps

/-!
# Every errand leaves less to do

A task that enters a bus comes further with its instruction, or receives an item, or parks, or finds
that it still waits. To park is what has to be paid for: whoever parks with the receivers may wake
every sender of the channel, but keeps the receivers in line, and whoever parks with the senders
wakes nobody.
-/

namespace MessageBus.Executor

variable {u : Usage} {x y : Executor} {f : Frame} {t b : Nat} {task : Task} {e : Errand Waker}
  {change : Task → Task} {frames rest : List Frame} {prior others : List (Nat × Place)}
  {a : Address} {side : Side} {k : Waker} {c : Channel Waker}

/-- Who is in line stays there if the bus that is entered keeps them. -/
theorem isQueued_of_set {r : Registry Waker} (Keeps : Place → Prop)
    (inside : b < x.buses.length) (buses : y.buses = x.buses.set b ⟨r, true⟩)
    (kept : ∀ p, Keeps p → (x.registry b).isQueued p = true → r.isQueued p = true)
    {held : Nat × Place} (keeps : Keeps held.2) (queued : x.isQueued held = true) :
    y.isQueued held = true := by
  by_cases here : held.1 = b
  · rw [isQueued, here, registry_set_self inside buses]
    rw [isQueued, here] at queued
    exact kept held.2 keeps queued
  · rw [isQueued, registry_set_ne here buses]
    exact queued

/-- A task takes a place instead of one that is not in line any more, if any. -/
theorem eases_of_park {o : Outcome (Registry Waker) Waker (Option Place)}
    (inside : b < x.buses.length) (buses : y.buses = x.buses.set b ⟨o.state, true⟩)
    (found : x.tasks[t]? = some task) (tasks : y.tasks = x.tasks.modify t change)
    (work : y.work ≤ x.work) (there : (x.registry b).find? a = some c)
    (ran : (x.registry b).park a side k = .ok o) (before : task.places.Perm (prior ++ others))
    (out : ∀ held ∈ prior, x.isQueued held = false)
    (after : (change task).places.Perm
      ([(b, ⟨a, side, ⟨(x.registry b).nextTicket⟩⟩)] ++ others))
    (yields : (change task).mayYield ≤ task.mayYield) : x.Eases y := by
  obtain ⟨joined, kept⟩ := Registry.isQueued_park there ran
  have kept (held : Nat × Place) (keeps : side = .senders ∨ held.2.side = .receivers)
      (queued : x.isQueued held = true) : y.isQueued held = true :=
    isQueued_of_set (fun p => side = .senders ∨ p.side = .receivers) inside buses kept keeps queued
  have new : y.isQueued (b, ⟨a, side, ⟨(x.registry b).nextTicket⟩⟩) = true := by
    rw [isQueued, registry_set_self inside buses]
    exact joined
  have load : y.load ≤ x.load := by
    have set := load_set_le inside buses
    have same := Registry.load_park_le there ran
    omega
  have heard (held : Nat × Place) (heard : x.isHeard held = true) : y.isHeard held = true := by
    refine isHeard_of_isQueued (kept held (.inr ?_)) heard
    rw [isHeard, Bool.and_eq_true] at heard
    exact of_decide_eq_true heard.1
  have unheard := unheard_modify_le heard found tasks
  have none : prior.countP x.isHeard = 0 := by
    refine List.countP_eq_zero.2 fun held member => ?_
    rw [isHeard, out held member, Bool.and_false]
    exact Bool.false_ne_true
  cases side with
  | receivers =>
    have less := Task.unqueued_lt before after none
      (List.countP_pos_iff.2 ⟨_, List.mem_singleton_self _, by rw [isHeard, new]; rfl⟩) heard
    exact .hears work load (by omega)
  | senders =>
    have same := Task.unqueued_le before after (none ▸ Nat.zero_le _) heard
    have queued (held : Nat × Place) := kept held (.inl rfl)
    have less := Task.unqueued_lt before after
      (List.countP_eq_zero.2 fun held member => by rw [out held member]; exact Bool.false_ne_true)
      (List.countP_pos_iff.2 ⟨_, List.mem_singleton_self _, new⟩) queued
    have unqueued := unqueued_modify_le queued found tasks
    exact .queues work load (by omega) (by omega)

/-- A task finds that it still waits. -/
theorem eases_of_revisit {p : Place} (frames' : List Frame) (inside : b < x.buses.length)
    (leads : x.Leads y (x.buses.set b ⟨((x.registry b).revisit p k).state, true⟩)
      (x.tasks.modify t id) (frames' ++ rest))
    (stack : x.stack = f :: rest) (found : x.tasks[t]? = some task)
    (work : (frames'.map (·.work)).sum ≤ f.work)
    (fewer : (frames'.map (·.chores)).sum < f.chores) : x.Eases y := by
  have queued (held : Nat × Place) : x.isQueued held = true → y.isQueued held = true :=
    isQueued_of_set (fun _ => True) inside leads.buses
      (fun p' _ queued => Registry.isQueued_revisit queued p k) trivial
  have heard (held : Nat × Place) : x.isHeard held = true → y.isHeard held = true :=
    isHeard_of_isQueued (queued held)
  have works := work_modify_le _ stack leads.stack found leads.tasks
  have set := load_set_le inside leads.buses
  have same := (x.registry b).load_revisit_le p k
  have unheard := unheard_modify_le heard found leads.tasks
  have kept := task.unqueued_le_of_kept heard
  have unqueued := unqueued_modify_le queued found leads.tasks
  have kept' := task.unqueued_le_of_kept queued
  have chores := chores_append _ stack leads.stack leads.ready
  simp only [id] at works unheard unqueued
  exact .chores (by omega) (by omega) (by omega) (by omega) (by omega)

/-! ### Ends of an errand -/

theorem work_access (b : Nat) (wakers : List Waker) (notes : List Note) (frames : List Frame) :
    ((Frame.release b :: .wake wakers :: .tell notes :: frames).map (·.work)).sum =
      (frames.map (·.work)).sum := by
  show 0 + (0 + (0 + (frames.map (·.work)).sum)) = _
  simp only [Nat.zero_add]

variable {buses : List SharedBus} {wakers : List Waker} {notes : List Note}

/-- A task on an errand has come further with its instruction. -/
theorem eases_of_access (leads : x.Leads y buses (x.tasks.modify t change)
      (.release b :: .wake wakers :: .tell notes :: (frames ++ rest)))
    (stack : x.stack = f :: rest) (found : x.tasks[t]? = some task)
    (same : (change task).work ≤ task.work) (less : (frames.map (·.work)).sum < f.work) :
    x.Eases y := by
  refine eases_of_work (_ :: _ :: _ :: frames) stack leads.stack found leads.tasks ?_
  rw [work_access]
  omega

theorem work_access_le (leads : x.Leads y buses (x.tasks.modify t change)
      (.release b :: .wake wakers :: .tell notes :: (frames ++ rest)))
    (stack : x.stack = f :: rest) (found : x.tasks[t]? = some task)
    (same : (change task).work ≤ task.work) (le : (frames.map (·.work)).sum ≤ f.work) :
    y.work ≤ x.work := by
  have work := work_modify_le (_ :: _ :: _ :: frames) stack leads.stack found leads.tasks
  rw [work_access] at work
  omega

/-- A task that is running has as much of its program left as long as it stays where it is. -/
theorem Task.work_le_of_running {task task' : Task} (running : task.life = .running)
    (life : task'.life = task.life) (program : task'.program = task.program)
    (position : task'.position = task.position) : task'.work ≤ task.work := by
  rw [Task.work_of_running running, Task.work_of_running (life.trans running), program, position]

/-- A task looks at its request. -/
theorem eases_of_look {w : Waker} {q : Request} {recorded : Bool} {prior : Option Place}
    {p : Outcome (Registry Waker) Waker Turn} (inside : b < x.buses.length)
    (stack : x.stack = .proceed w :: rest) (found : x.tasks[w.task]? = some task)
    (running : task.life = .running)
    (before : ∃ others, task.places.Perm (prior.toList.map (b, ·) ++ others) ∧
      (p.answer.leaves b recorded task).places.Perm
        (((p.answer.stays q prior).map (·.place)).map (b, ·) ++ others))
    (ran : q.look (x.registry b) prior w = .ok p)
    (leads : x.Leads y (x.buses.set b ⟨p.state, true⟩)
      (x.tasks.modify w.task (p.answer.leaves b recorded))
      (.release b :: .wake p.woken :: .tell p.afterwards :: ([p.answer.frame w] ++ rest))) :
    x.Eases y := by
  have ends := Request.ends_of_look ran
  obtain ⟨answer, state, woken, notes, afterwards⟩ := p
  obtain ⟨others, before, after⟩ := before
  have same : (answer.leaves b recorded task).work ≤ task.work := by
    cases answer <;> exact Task.work_le_of_running running rfl rfl rfl
  cases ends with
  | tried _ _ _ =>
    exact eases_of_access leads stack found same (by simp [Turn.frame, Frame.work])
  | @parked _ a c o out blocked there parks =>
    refine eases_of_park inside leads.buses found leads.tasks
      (work_access_le leads stack found same (by simp [Turn.frame, Frame.work])) there parks before
      (fun held member => ?_) after ?_
    · obtain ⟨p, earlier, rfl⟩ := List.mem_map.1 member
      exact out p (Option.mem_toList.1 earlier)
    · simp [Turn.leaves, Task.mayYield]
  | waiting _ =>
    refine eases_of_revisit [_, _, _, _] inside leads stack found ?_ ?_
    · simp [Turn.frame, Frame.work]
    · simp [Turn.frame, Frame.chores]
  | gone _ =>
    exact eases_of_access leads stack found same (by simp [Turn.frame, Frame.work])

/-- A task looks for the next item of its stream. -/
theorem eases_of_streamLook {w : Waker} {s : Stream} {id : ChannelId}
    {p : Outcome (Registry Waker) Waker Turn} (inside : s.bus < x.buses.length)
    (stack : x.stack = .proceed w :: rest) (found : x.tasks[w.task]? = some task)
    (running : task.life = .running)
    (before : ∃ others, task.places.Perm (s.place.toList.map (s.bus, ·) ++ others) ∧
      (p.answer.leavesStream s task).places.Perm
        (((p.answer.stays (.recv ⟨s.handle, id⟩) s.place).map (·.place)).map (s.bus, ·) ++ others))
    (ran : (Request.recv ⟨s.handle, id⟩).look (x.registry s.bus) s.place w = .ok p)
    (leads : x.Leads y (x.buses.set s.bus ⟨p.state, true⟩)
      (x.tasks.modify w.task (p.answer.leavesStream s))
      (.release s.bus :: .wake p.woken :: .tell p.afterwards ::
        ([p.answer.streamFrame w (task.ifPending w)] ++ rest))) :
    x.Eases y := by
  have ends := Request.ends_of_look ran
  obtain ⟨answer, state, woken, notes, afterwards⟩ := p
  obtain ⟨others, before, after⟩ := before
  have same : (answer.leavesStream s task).work ≤ task.work := by
    rcases answer with ⟨_ | _⟩ | _ | _ | _ <;> exact Task.work_le_of_running running rfl rfl rfl
  have pending : task.ifPending w = .suspend w.task ∨
      task.ifPending w = .complete (.task w) .notYet := by
    rw [Task.ifPending]
    split
    · exact .inr rfl
    · exact .inl rfl
  generalize place : s.place = prior at ends
  cases ends with
  | @tried _ tried result _ attempted answer =>
    cases result with
    | error e =>
      exact eases_of_access leads stack found same (by simp [Turn.streamFrame, Frame.work])
    | ok v =>
      cases item : v.message? with
      | none =>
        exact eases_of_access leads stack found same (by simp [Turn.streamFrame, Frame.work, item])
      | some m =>
        have less := Registry.load_recv_lt attempted answer
        have set : y.load + (x.registry s.bus).load ≤ x.load + tried.state.load :=
          load_set_le inside leads.buses
        refine .takes (work_access_le leads stack found same ?_) (by omega)
        simp [Turn.streamFrame, Frame.work, item]
  | @parked _ a c o out blocked there parks =>
    rcases pending with suspends | completes
    · refine eases_of_park inside leads.buses found leads.tasks
        (work_access_le leads stack found same ?_) there parks before (fun held member => ?_) after
        (Nat.le_refl _)
      · simp [Turn.streamFrame, Frame.work, suspends]
      · obtain ⟨p, earlier, rfl⟩ := List.mem_map.1 member
        rw [place] at earlier
        exact out p (Option.mem_toList.1 earlier)
    · exact eases_of_access leads stack found same
        (by simp [Turn.streamFrame, Frame.work, completes])
  | waiting _ =>
    rcases pending with suspends | completes
    · refine eases_of_revisit [_, _, _, _] inside leads stack found ?_ ?_
      · simp [Turn.streamFrame, Frame.work, suspends]
      · simp [Turn.streamFrame, Frame.chores, suspends]
    · exact eases_of_access leads stack found same
        (by simp [Turn.streamFrame, Frame.work, completes])
  | gone _ =>
    exact eases_of_access leads stack found same (by simp [Turn.streamFrame, Frame.work])

theorem Sequel.eases {o : Outcome (Registry Waker) Waker Upshot} (sound : x.Sound u)
    (underway : x.Underway) (stack : x.stack = f :: rest) (carried : x.carried b e = some o)
    (sequel : x.Sequel f b e o t change frames)
    (leads : x.Leads y (x.buses.set b ⟨o.state, true⟩) (x.tasks.modify t change)
      (.release b :: .wake o.woken :: .tell o.afterwards :: (frames ++ rest))) : x.Eases y := by
  have inside := inside_of_carried carried
  have ran := effect_of_carried carried
  have running {g : Frame} {t : Nat} {task : Task} (stack : x.stack = g :: rest)
      (own : g.turn? = some t) (found : x.tasks[t]? = some task) : task.life = .running := by
    obtain ⟨task', below, -, turn⟩ := sound.inTurn stack own
    cases found.symm.trans turn.found
    exact turn.running
  have places (task : Task) (found : x.tasks[t]? = some task) := sequel.places sound stack ran found
  cases sequel with
  | operates found _ _ _ =>
    exact eases_of_access leads stack found (Nat.le_refl _) (by simp [Frame.work])
  | looks found pursues looked =>
    exact eases_of_look inside stack found (running stack rfl found) (places _ found) looked leads
  | looksAtStream found _ _ _ looked =>
    exact eases_of_streamLook inside stack found (running stack rfl found) (places _ found) looked
      leads
  | fails found _ _ _ =>
    exact eases_of_access leads stack found
      (Task.work_le_of_running (running stack rfl found) rfl rfl rfl) (by simp [Frame.work])
  | resolvesStream found _ _ =>
    exact eases_of_access leads stack found (Nat.le_refl _) (by simp [Frame.work])
  | @resolves _ task _ _ _ _ _ found _ _ remembers =>
    obtain ⟨remembered, kept⟩ := remembers task
    refine eases_of_access leads stack found ?_ (by simp [Frame.work])
    rw [kept]
    exact Task.work_le_of_running (running stack rfl found) rfl rfl rfl
  | @parks w task _ h side known before p o found progress current parked answer =>
    obtain ⟨others, before, after⟩ := places task found
    cases there : (x.registry b).find? ⟨h, known⟩ with
    | none =>
      cases parked.symm.trans (Registry.park_of_gone there side w)
      cases answer
    | some c =>
      cases answer.symm.trans (Registry.joins_of_park there parked).answer
      rw [Outcome.answer_map, answer] at after
      refine eases_of_park inside leads.buses found leads.tasks
        (work_access_le leads stack found ?_ ?_) there parked before ?_ after ?_
      · exact Task.work_le_of_running (running stack rfl found) rfl rfl rfl
      · simp [Frame.work]
      · intro held member
        cases member
      · simp [Task.mayYield]
  | parksNowhere found _ _ _ _ =>
    exact eases_of_access leads stack found (Nat.le_refl _) (by simp [Frame.work])
  | waits found _ _ =>
    refine eases_of_revisit [_, _, _, _, _] inside leads stack found ?_ ?_
    · simp [Frame.work]
    · simp [Frame.chores, Request.woken_revisit]
  | wakes found _ _ =>
    exact eases_of_access leads stack found
      (Task.work_le_of_running (running stack rfl found) rfl rfl rfl) (by simp [Frame.work])
  | abandons forgets =>
    cases forgets with
    | stream replaces found _ =>
      obtain ⟨own, less⟩ := replaces.work_lt
      exact eases_of_access leads stack found
        (Task.work_le_of_running (running stack own found) rfl rfl rfl) (by simpa using less)
    | @place _ task _ _ _ found holds =>
      have ended := underway.vacates t (stack ▸ List.mem_cons_self) task found
      have ended' : task.giveUpPlace.life = .ended := (Task.life_giveUpPlace task).trans ended
      refine eases_of_work [_, _, _, _] stack leads.stack found leads.tasks ?_
      rw [work_access, Task.work_of_ended ended', Task.work_of_ended ended, holds,
        Task.places_giveUpPlace holds]
      simp [Frame.work]

/-! ### Every step -/

theorem load_release (buses : y.buses = x.buses.modify b ({ · with inUse := false })) :
    y.load = x.load := by
  rw [load, load, buses]
  congr 1
  refine List.ext_getElem? fun i => ?_
  rw [List.getElem?_map, List.getElem?_map, List.getElem?_modify]
  cases x.buses[i]? with
  | none => rfl
  | some bus =>
    by_cases here : b = i
    · simp [here]
    · simp [here]

/-! Taking up a chore that changes no task and no channel. -/

theorem chores_release_lt (stack : x.stack = .release b :: rest) (stack' : y.stack = rest)
    (ready : y.ready = x.ready) : y.chores < x.chores := by
  rw [chores, chores, stack', ready, stack]
  simp [Frame.chores]

theorem chores_poll_lt {w k : Waker} {later : List Waker}
    (stack : x.stack = .wake (w :: later) :: rest)
    (stack' : y.stack = .poll k :: .wake later :: rest) (ready : y.ready = x.ready) :
    y.chores < x.chores := by
  rw [chores, chores, stack', ready, stack]
  simp only [List.map_cons, List.sum_cons, List.length_cons, Frame.chores]
  omega

theorem chores_ready_lt {w : Waker} {later : List Waker}
    (stack : x.stack = .wake (w :: later) :: rest) (stack' : y.stack = .wake later :: rest)
    (ready : y.ready = x.ready ∨ y.ready = x.ready ++ [w.task]) : y.chores < x.chores := by
  have longer : y.ready.length ≤ x.ready.length + 1 := by
    rcases ready with same | more
    · rw [same]
      exact Nat.le_succ _
    · rw [more, List.length_append]
      exact Nat.le_refl _
  rw [chores, chores, stack', stack]
  simp only [List.map_cons, List.sum_cons, List.length_cons, Frame.chores]
  omega

theorem chores_drain_lt {limit limit' : Option Nat} {polled polled' : Nat} {k : Waker}
    {later : List Nat} (stack : x.stack = .drain limit polled :: rest)
    (stack' : y.stack = frames ++ .drain limit' polled' :: rest) (ready : x.ready = t :: later)
    (ready' : y.ready = later) (alive : frames = [.poll k] ∨ frames = []) :
    y.chores < x.chores := by
  rw [chores, chores, stack', ready', ready, stack]
  rcases alive with rfl | rfl
  · simp only [List.map_cons, List.sum_cons, List.length_cons, Frame.chores, List.singleton_append]
    omega
  · simp only [List.map_cons, List.sum_cons, List.length_cons, Frame.chores, List.nil_append]
    omega

/-- Every step leaves less to do. -/
theorem Sound.eases_step (sound : x.Sound u) (underway : x.Underway) (some : x.stack ≠ []) :
    x.Eases x.step := by
  obtain ⟨f, rest, stack⟩ := List.exists_cons_of_ne_nil some
  have rests (frames : List Frame) (stack' : x.step.stack = frames ++ rest)
      (buses : x.step.buses = x.buses) (tasks : x.step.tasks = x.tasks)
      (work : (frames.map (·.work)).sum ≤ f.work) (chores : x.step.chores < x.chores) :
      x.Eases x.step :=
    eases_of_chores frames stack stack' tasks (registry_of_buses buses)
      (Nat.le_of_eq (by rw [load, load, buses])) work chores
  cases x.step_unfolds stack with
  | quiet _ quiet leads => exact quiet.eases sound underway stack leads
  | releases _ leads =>
    exact eases_of_chores [] stack leads.stack leads.tasks
      (registry_modify leads.buses fun _ => rfl) (Nat.le_of_eq (load_release leads.buses))
      (Nat.zero_le _) (chores_release_lt stack leads.stack leads.ready)
  | polls _ _ _ leads _ =>
    exact rests [_, _] leads.stack leads.buses leads.tasks (by simp [Frame.work])
      (chores_poll_lt stack leads.stack leads.ready)
  | readies _ leads ready _ _ =>
    exact rests [_] leads.stack leads.buses leads.tasks (by simp [Frame.work])
      (chores_ready_lt stack leads.stack ready)
  | @drains _ _ _ _ frames _ _ _ ready alive leads ready' =>
    have fewer : x.step.chores < x.chores :=
      chores_drain_lt stack leads.stack ready ready' (alive.imp_right (·.1))
    rcases alive with rfl | ⟨rfl, -⟩
    · exact rests [_, _] leads.stack leads.buses leads.tasks (by simp [Frame.work]) fewer
    · exact rests [_] leads.stack leads.buses leads.tasks (by simp [Frame.work]) fewer
  | enters _ carried sequel leads => exact sequel.eases sound underway stack carried leads
  | fails errand failed _ _ _ _ => exact absurd failed (sound.carried errand)

end MessageBus.Executor
