import MessageBus.Proofs.Attendance.Runs

/-!
# Where in its program a task is

A task that has begun an instruction is at a position within its program, and stays there until the
instruction is complete. Only then does the position change, and no other frame of the turn is on
the stack at that moment. A task that is to give up its places is over.

`Reachable.underway` says that this holds in every run. It is what makes the end of an instruction
count: one instruction less is left to do.
-/

namespace MessageBus

/-- Whether a frame belongs to an instruction that was begun. -/
def Frame.IsWithin : Frame → Prop
  | .complete (.task _) _ => True
  | .receive _ _ => True
  | .adopt _ _ => True
  | .conclude _ _ _ _ _ _ _ => True
  | _ => False

/-- Whether an instruction is complete with a frame. -/
def Frame.Completes : Frame → Prop
  | .complete (.task _) _ => True
  | _ => False

namespace Task

variable {task task' : Task} {i : Instruction}

/-- Whether there is an instruction that the task is at. -/
def IsUnderway (task : Task) : Prop := task.position < task.program.length

/-- What becomes of the position of the task `t` in a step that takes the frame `f` off. -/
structure KeepsPosition (t : Nat) (f : Frame) (task task' : Task) : Prop where
  position : task'.position = task.position ∨
    f.Completes ∧ f.turn? = some t ∧ task'.progress = .fresh
  begun : task'.progress ≠ .fresh → task.IsUnderway

theorem isUnderway_of_current (current : task.current? = some i) : task.IsUnderway :=
  (List.getElem?_eq_some_iff.1 current).1

theorem isUnderway_of_atStream (begun : task.progress ≠ .fresh → task.IsUnderway)
    (atStream : task.IsAtStream) : task.IsUnderway := by
  rcases atStream with ⟨-, looks⟩ | ⟨items, collecting⟩
  · rw [looksAtStream] at looks
    split at looks
    · rename_i current
      exact isUnderway_of_current current
    · rename_i current
      exact isUnderway_of_current current
    · rename_i current
      exact isUnderway_of_current current
    · cases looks
  · exact begun (by rw [collecting]; exact Progress.noConfusion)

theorem isUnderway_of_prompt (begun : task.progress ≠ .fresh → task.IsUnderway)
    (prompt : task.IsPrompt) : task.IsUnderway := by
  rcases prompt with yielded | ⟨-, atStream⟩ | ⟨-, -, -, i, current⟩
  · exact begun (by rw [yielded]; exact Progress.noConfusion)
  · exact isUnderway_of_atStream begun atStream
  · exact isUnderway_of_current current

theorem keepsPosition_of_same {t : Nat} {f : Frame}
    (begun : task.progress ≠ .fresh → task.IsUnderway)
    (position : task'.position = task.position) (progress : task'.progress = task.progress) :
    task.KeepsPosition t f task' :=
  ⟨.inl position, fun started => begun (progress ▸ started)⟩

end Task

namespace Executor

/-- Every task that has begun an instruction is at one, and those that give up their places are
over. -/
structure Underway (x : Executor) : Prop where
  begun : ∀ (t : Nat) task, x.tasks[t]? = some task → task.progress ≠ .fresh → task.IsUnderway
  within : ∀ f ∈ x.stack, f.IsWithin → ∀ t task, f.turn? = some t → x.tasks[t]? = some task →
    task.IsUnderway
  vacates : ∀ t, .vacate t ∈ x.stack → ∀ task, x.tasks[t]? = some task → task.life = .ended

variable {u : Usage} {x y : Executor} {f : Frame} {t b : Nat} {task : Task} {e : Errand Waker}
  {change : Task → Task} {frames rest : List Frame}

/-! ### The parts of a step -/

theorem Pursues.isUnderway {q : Request} {prior : Option Place} {recorded : Bool}
    (begun : task.progress ≠ .fresh → task.IsUnderway)
    (pursues : x.Pursues task b q prior recorded) : task.IsUnderway := by
  cases pursues with
  | calling progress => exact begun (by rw [progress]; exact Progress.noConfusion)
  | call _ current _ => exact Task.isUnderway_of_current current
  | recvFrom _ current _ => exact Task.isUnderway_of_current current

theorem Quiet.keepsPosition (underway : x.Underway) (quiet : x.Quiet f t change frames)
    (found : x.tasks[t]? = some task) : task.KeepsPosition t f (change task) := by
  have begun := underway.begun t task found
  have same (position : (change task).position = task.position)
      (progress : (change task).progress = task.progress) : task.KeepsPosition t f (change task) :=
    Task.keepsPosition_of_same begun position progress
  cases quiet with
  | breaksOff _ _ => exact ⟨.inl rfl, fun started => absurd rfl started⟩
  | observes found' progress =>
    cases found.symm.trans found'
    exact ⟨.inl rfl, fun _ => begun (by rw [progress]; exact Progress.noConfusion)⟩
  | completes _ => exact ⟨.inr ⟨trivial, rfl, rfl⟩, fun started => absurd rfl started⟩
  | collects found' current =>
    cases found.symm.trans found'
    exact ⟨.inl rfl, fun _ => Task.isUnderway_of_current current⟩
  | yields found' _ current =>
    cases found.symm.trans found'
    exact ⟨.inl rfl, fun _ => Task.isUnderway_of_current current⟩
  | _ => exact same rfl rfl

theorem Sequel.keepsPosition {o : Outcome (Registry Waker) Waker Upshot} (underway : x.Underway)
    (sequel : x.Sequel f b e o t change frames) (found : x.tasks[t]? = some task) :
    task.KeepsPosition t f (change task) := by
  have begun := underway.begun t task found
  have same (position : (change task).position = task.position)
      (progress : (change task).progress = task.progress) : task.KeepsPosition t f (change task) :=
    Task.keepsPosition_of_same begun position progress
  cases sequel with
  | @looks _ _ _ _ _ _ p found' pursues _ =>
    cases found.symm.trans found'
    have here := pursues.isUnderway begun
    rcases p.answer with _ | _ | _ | _
    · exact ⟨.inl rfl, fun _ => here⟩
    · exact ⟨.inl rfl, fun _ => here⟩
    · exact ⟨.inl rfl, fun _ => here⟩
    · exact ⟨.inl rfl, fun _ => here⟩
  | @looksAtStream _ _ _ _ p _ _ _ _ _ =>
    refine same ?_ ?_ <;> rcases p.answer with ⟨_ | _⟩ | _ | _ | _ <;> rfl
  | fails _ _ _ _ => exact ⟨.inl rfl, fun started => absurd rfl started⟩
  | resolves _ _ _ remembers =>
    obtain ⟨remembered, kept⟩ := remembers task
    exact same (by rw [kept]) (by rw [kept])
  | parks found' _ current _ _ =>
    cases found.symm.trans found'
    exact ⟨.inl rfl, fun _ => Task.isUnderway_of_current current⟩
  | wakes _ _ _ => exact ⟨.inl rfl, fun started => absurd rfl started⟩
  | abandons forgets =>
    cases forgets with
    | stream _ _ _ => exact same rfl rfl
    | place _ _ =>
      show task.KeepsPosition t _ task.giveUpPlace
      rw [Task.giveUpPlace]
      split
      · exact ⟨.inl rfl, fun started => absurd rfl started⟩
      · exact Task.keepsPosition_of_same begun rfl rfl
  | _ => exact same rfl rfl

/-- Whether the frames that a step puts on the stack are of tasks that are underway. -/
def AllUnderway (x : Executor) (f : Frame) (frames : List Frame) : Prop :=
  ∀ g ∈ frames, g.IsWithin → ¬f.Completes ∧
    ∀ t task, g.turn? = some t → x.tasks[t]? = some task → task.IsUnderway

theorem allUnderway_of_outside (outside : ∀ g ∈ frames, ¬g.IsWithin) : x.AllUnderway f frames :=
  fun g member within => absurd within (outside g member)

theorem allUnderway_of_found (found : x.tasks[t]? = some task) (underway : task.IsUnderway)
    (other : ¬f.Completes) (own : ∀ g ∈ frames, g.turn? = some t ∨ ¬g.IsWithin) :
    x.AllUnderway f frames := by
  intro g member within
  refine ⟨other, fun t' task' own' found' => ?_⟩
  rcases own g member with own | outside
  · cases own.symm.trans own'
    cases found.symm.trans found'
    exact underway
  · exact absurd within outside

theorem Replaces.allUnderway {stream : Option Stream} {next : Frame} (underway : x.Underway)
    (stack : x.stack = f :: rest) (replaces : x.Replaces f t stream next) :
    x.AllUnderway f [next] := by
  cases replaces with
  | ends _ _ _ => exact allUnderway_of_outside (by simp [Frame.IsWithin])
  | drops found _ current =>
    exact allUnderway_of_found found (Task.isUnderway_of_current current) id
      (List.forall_mem_singleton.2 (.inl rfl))
  | @adopts w s =>
    rintro g member -
    cases List.mem_singleton.1 member
    have top : Frame.adopt w s ∈ x.stack := stack ▸ List.mem_cons_self
    exact ⟨id, fun t task own found => underway.within _ top trivial t task own found⟩

theorem Quiet.allUnderway (underway : x.Underway) (stack : x.stack = f :: rest)
    (quiet : x.Quiet f t change frames) : x.AllUnderway f frames := by
  cases quiet with
  | @replies _ w reply own prompt =>
    rintro g member -
    cases List.mem_singleton.1 member
    have within (inside : f.IsWithin) (t : Nat) (task : Task)
        (own' : (Frame.complete (.task w) reply).turn? = some t)
        (found : x.tasks[t]? = some task) : task.IsUnderway :=
      underway.within f (stack ▸ List.mem_cons_self) inside t task (own.trans own') found
    cases f with
    | proceed w' =>
      obtain ⟨task, found, -, prompt⟩ := prompt
      refine ⟨id, fun t task' own' found' => ?_⟩
      have same : w'.task = t := Option.some.inj (own.trans own')
      rw [same] at found
      cases found.symm.trans found'
      exact Task.isUnderway_of_prompt (underway.begun t task found) prompt
    | receive _ _ => exact ⟨id, within trivial⟩
    | conclude _ _ _ _ _ _ _ => exact ⟨id, within trivial⟩
    | _ => exact prompt.elim
  | streamEnds found atStream _ _ =>
    exact allUnderway_of_found found
      (Task.isUnderway_of_atStream (underway.begun _ _ found) atStream) id
      (List.forall_mem_singleton.2 (.inl rfl))
  | drops found _ current _ _ =>
    refine allUnderway_of_found found (Task.isUnderway_of_current current) id ?_
    exact List.forall_mem_cons.2 ⟨.inr id, List.forall_mem_singleton.2 (.inl rfl)⟩
  | replaces replaces _ => exact replaces.allUnderway underway stack
  | _ => exact allUnderway_of_outside (by simp [Frame.IsWithin])

theorem Sequel.allUnderway {o : Outcome (Registry Waker) Waker Upshot} (underway : x.Underway)
    (stack : x.stack = f :: rest) (sequel : x.Sequel f b e o t change frames) :
    x.AllUnderway f frames := by
  cases sequel with
  | operates found _ current _ =>
    exact allUnderway_of_found found (Task.isUnderway_of_current current) id
      (List.forall_mem_singleton.2 (.inl rfl))
  | @looks w _ _ _ _ _ p found pursues _ =>
    refine allUnderway_of_found found (pursues.isUnderway (underway.begun _ _ found)) id
      (List.forall_mem_singleton.2 (.inl ?_))
    rcases p.answer with _ | _ | _ | _ <;> rfl
  | @looksAtStream w task _ _ p found atStream _ _ _ =>
    refine allUnderway_of_found found
      (Task.isUnderway_of_atStream (underway.begun _ _ found) atStream) id
      (List.forall_mem_singleton.2 (.inl ?_))
    rcases p.answer with ⟨_ | _⟩ | _ | _ | _
    exacts [rfl, rfl, Task.turn_ifPending task w, Task.turn_ifPending task w, rfl]
  | fails found _ current _ =>
    exact allUnderway_of_found found (Task.isUnderway_of_current current) id
      (List.forall_mem_singleton.2 (.inl rfl))
  | resolvesStream found _ current =>
    exact allUnderway_of_found found (Task.isUnderway_of_current current) id
      (List.forall_mem_singleton.2 (.inl rfl))
  | resolves found _ current _ =>
    exact allUnderway_of_found found (Task.isUnderway_of_current current) id
      (List.forall_mem_singleton.2 (.inl rfl))
  | parksNowhere found _ current _ _ =>
    exact allUnderway_of_found found (Task.isUnderway_of_current current) id
      (List.forall_mem_singleton.2 (.inl rfl))
  | wakes found progress _ =>
    refine allUnderway_of_found found (underway.begun _ _ found ?_) id
      (List.forall_mem_singleton.2 (.inl rfl))
    rw [progress]
    exact Progress.noConfusion
  | abandons forgets =>
    cases forgets with
    | stream replaces _ _ => exact replaces.allUnderway underway stack
    | place _ _ => exact allUnderway_of_outside (by simp [Frame.IsWithin])
  | _ => exact allUnderway_of_outside (by simp [Frame.IsWithin])

/-- Only tasks that are over are made to give up their places. -/
def AllOver (x : Executor) (t : Nat) (change : Task → Task) (frames : List Frame) : Prop :=
  ∀ t', .vacate t' ∈ frames → t' = t ∧ ∀ task, x.tasks[t]? = some task →
    (change task).life = .ended

theorem allOver_of_none (none : ∀ t', .vacate t' ∉ frames) : x.AllOver t change frames :=
  fun t' member => absurd member (none t')

theorem Replaces.ne_vacate {stream : Option Stream} {next : Frame}
    (replaces : x.Replaces f t stream next) (t' : Nat) : .vacate t' ∉ [next] := by
  cases replaces <;> simp

theorem Quiet.allOver (quiet : x.Quiet f t change frames) : x.AllOver t change frames := by
  cases quiet with
  | breaksOff _ _ =>
    intro t' member
    cases List.mem_singleton.1 member
    exact ⟨rfl, fun _ _ => rfl⟩
  | drops _ _ _ _ _ =>
    intro t' member
    rcases List.mem_cons.1 member with same | member
    · cases same
      exact ⟨rfl, fun _ _ => rfl⟩
    · cases List.mem_singleton.1 member
  | replaces replaces _ => exact allOver_of_none replaces.ne_vacate
  | _ => exact allOver_of_none (by simp)

theorem Sequel.allOver {o : Outcome (Registry Waker) Waker Upshot} (underway : x.Underway)
    (stack : x.stack = f :: rest) (sequel : x.Sequel f b e o t change frames) :
    x.AllOver t change frames := by
  cases sequel with
  | @looks w _ _ _ _ _ p _ _ _ =>
    refine allOver_of_none fun t' => ?_
    rcases p.answer with _ | _ | _ | _ <;> simp [Turn.frame]
  | @looksAtStream w task _ _ p _ _ _ _ _ =>
    have pending (t' : Nat) : task.ifPending w ≠ .vacate t' := by
      rw [Task.ifPending]
      split <;> exact Frame.noConfusion
    refine allOver_of_none fun t' => ?_
    rcases p.answer with ⟨_ | _⟩ | _ | _ | _ <;> simp [Turn.streamFrame, (pending t').symm]
  | abandons forgets =>
    cases forgets with
    | stream replaces _ _ => exact allOver_of_none replaces.ne_vacate
    | place _ _ =>
      intro t' member
      cases List.mem_singleton.1 member
      refine ⟨rfl, fun task found => ?_⟩
      rw [Task.life_giveUpPlace]
      exact underway.vacates t (stack ▸ List.mem_cons_self) task found
  | _ => exact allOver_of_none (by simp)

/-! ### Every step -/

/-- A change of one task leaves every task where it is, or at the end of its instruction. -/
theorem Sound.underway_of_modify (frames : List Frame) (sound : x.Sound u)
    (underway : x.Underway) (stack : x.stack = f :: rest)
    (tasks : y.tasks = x.tasks.modify t change) (stack' : y.stack = frames ++ rest)
    (ages : ∀ task, x.tasks[t]? = some task → task.Ages t f frames (change task))
    (keeps : ∀ task, x.tasks[t]? = some task → task.KeepsPosition t f (change task))
    (new : x.AllUnderway f frames)
    (allOver : x.AllOver t change frames) : y.Underway := by
  have exists_before (t' : Nat) (task' : Task) (found : y.tasks[t']? = some task') :
      ∃ task, x.tasks[t']? = some task ∧
        (t = t' ∧ task' = change task ∨ t ≠ t' ∧ task' = task) := by
    rw [getElem?_of_modify tasks t'] at found
    obtain ⟨task, before, same⟩ := Option.map_eq_some_iff.1 found
    refine ⟨task, before, ?_⟩
    split at same
    · rename_i here
      exact .inl ⟨here, same.symm⟩
    · rename_i elsewhere
      exact .inr ⟨elsewhere, same.symm⟩
  constructor
  · intro t' task' found started
    obtain ⟨task, before, ⟨rfl, rfl⟩ | ⟨-, rfl⟩⟩ := exists_before t' task' found
    · have kept := keeps task before
      rcases kept.position with same | ⟨-, -, fresh⟩
      · rw [Task.IsUnderway, same, (ages task before).program]
        exact kept.begun started
      · exact absurd fresh started
    · exact underway.begun t' task' before started
  · intro g member within t' task' own' found
    obtain ⟨task, before, changed⟩ := exists_before t' task' found
    -- The frame was there before or is new: either way its task was underway.
    have was : task.IsUnderway := by
      rw [stack', List.mem_append] at member
      rcases member with member | member
      · exact (new g member within).2 t' task own' before
      · exact underway.within g (stack ▸ List.mem_cons_of_mem _ member) within t' task own' before
    rcases changed with ⟨rfl, rfl⟩ | ⟨-, rfl⟩
    · rcases (keeps task before).position with same | ⟨completes, own, -⟩
      · rw [Task.IsUnderway, same, (ages task before).program]
        exact was
      · rw [stack', List.mem_append] at member
        rcases member with member | member
        · exact absurd completes (new g member within).1
        · exact absurd own' (sound.turn_below stack own member)
    · exact was
  · intro t' member task' found
    obtain ⟨task, before, changed⟩ := exists_before t' task' found
    rw [stack', List.mem_append] at member
    rcases member with member | member
    · obtain ⟨rfl, ended⟩ := allOver t' member
      rcases changed with ⟨-, rfl⟩ | ⟨other, -⟩
      · exact ended task before
      · exact absurd rfl other
    · have ended := underway.vacates t' (stack ▸ List.mem_cons_of_mem _ member) task before
      rcases changed with ⟨rfl, rfl⟩ | ⟨-, rfl⟩
      · exact (ages task before).ended ended
      · exact ended

/-- A step keeps every task at its instruction until that is complete. -/
theorem Sound.underway_step (sound : x.Sound u) (underway : x.Underway) : x.step.Underway := by
  cases stack : x.stack with
  | nil =>
    rw [step_of_stack_nil stack]
    exact underway
  | cons f rest =>
    have rests (frames : List Frame) (tasks : x.step.tasks = x.tasks)
        (stack' : x.step.stack = frames ++ rest) (outside : ∀ g ∈ frames, ¬g.IsWithin)
        (none : ∀ t, .vacate t ∉ frames) : x.step.Underway := by
      refine sound.underway_of_modify (t := 0) frames underway stack
        (tasks.trans (List.modify_id 0 _).symm) stack'
        (fun task found => sound.ages_refl frames stack found)
        (fun task found => Task.keepsPosition_of_same (underway.begun 0 task found) rfl rfl)
        (allUnderway_of_outside outside) (allOver_of_none none)
    cases x.step_unfolds stack with
    | quiet _ quiet leads =>
      exact sound.underway_of_modify _ underway stack leads.tasks leads.stack
        (fun _ found => quiet.ages sound stack found)
        (fun _ found => quiet.keepsPosition underway found) (quiet.allUnderway underway stack)
        quiet.allOver
    | releases _ leads => exact rests [] leads.tasks leads.stack (List.forall_mem_nil _) (by simp)
    | polls _ _ _ leads _ =>
      exact rests [_, _] leads.tasks leads.stack (by simp [Frame.IsWithin]) (by simp)
    | readies _ leads _ _ _ =>
      exact rests [_] leads.tasks leads.stack (by simp [Frame.IsWithin]) (by simp)
    | drains _ _ alive leads _ =>
      refine rests _ leads.tasks (leads.stack.trans (List.append_cons _ _ _)) ?_ ?_
      all_goals rcases alive with rfl | ⟨rfl, -⟩ <;> simp [Frame.IsWithin]
    | @enters _ _ _ o _ _ frames _ _ sequel leads =>
      have new := sequel.allUnderway underway stack
      have allOver := sequel.allOver underway stack
      refine sound.underway_of_modify (_ :: _ :: _ :: frames) underway stack leads.tasks
        leads.stack
        (fun _ found => (sequel.ages sound stack found).mono (List.subset_append_right [_, _, _] _))
        (fun _ found => sequel.keepsPosition underway found) (fun g member within => ?_)
        fun t' member => allOver t' ?_
      · simp only [List.mem_cons] at member
        rcases member with rfl | rfl | rfl | member
        · exact within.elim
        · exact within.elim
        · exact within.elim
        · exact new g member within
      · simpa using member
    | fails errand failed _ _ _ _ => exact absurd failed (sound.carried errand)

/-! ### Every run -/

/-- Whoever is to give up its places after a request was just dropped. -/
theorem Sound.life_of_ask_vacate (sound : x.Sound u) (idle : x.stack = []) {s : Step}
    (lawful : s.Lawful u x.buses.length) (member : .vacate t ∈ (x.ask s).stack)
    (found : (x.ask s).tasks[t]? = some task) : task.life = .ended := by
  have puts (frames : List Frame) (stack : (x.ask s).stack = frames ++ x.stack)
      (none : .vacate t ∉ frames) : task.life = .ended := by
    rw [stack, idle, List.append_nil] at member
    exact absurd member none
  cases x.ask_asked s with
  | answers _ answer leads =>
    rcases answer with rfl | ⟨reply, rfl⟩
    · exact puts _ leads.stack (by simp)
    · exact puts _ leads.stack (by simp)
  | runs leads => exact puts [_] leads.stack (by simp)
  | polls _ _ leads => exact puts [_, _] leads.stack (by simp)
  | drops _ _ leads =>
    rw [leads.stack, idle] at member
    simp only [List.mem_cons, Frame.vacate.injEq, List.not_mem_nil, or_false, reduceCtorEq]
      at member
    subst member
    rw [getElem?_of_modify leads.tasks t] at found
    obtain ⟨before, -, same⟩ := Option.map_eq_some_iff.1 found
    rw [if_pos rfl] at same
    rw [← same]
  | dropsInUse _ _ _ => exact lawful.elim
  | adds leads => exact puts [] leads.stack (by simp)
  | spawns leads _ => exact puts [] leads.stack (by simp)
  | operates _ _ leads => exact puts [_, _, _, _] leads.stack (by simp)
  | fails failed _ _ _ =>
    exact absurd failed (sound.carried_of_free lawful (sound.calm_of_idle idle _) _)

theorem Sound.underway_ask (sound : x.Sound u) (underway : x.Underway) (idle : x.stack = [])
    {s : Step} (lawful : s.Lawful u x.buses.length) : (x.ask s).Underway where
  begun t task found started := by
    rcases sound.exists_of_ask idle lawful found with ⟨task', before, rfl | rfl⟩ | ⟨_, _, rfl⟩
    · exact underway.begun t task before started
    · exact underway.begun t task' before started
    · exact absurd rfl started
  within f member _ t task own _ := by
    cases own.symm.trans ((sound.ask_stack idle lawful).1 f member)
  vacates t member task found := sound.life_of_ask_vacate idle lawful member found

theorem Reachable.underway (reachable : x.Reachable u) : x.Underway := by
  obtain ⟨inline, run⟩ := reachable
  induction run with
  | refl => exact ⟨fun _ _ => nofun, fun _ => nofun, fun _ => nofun⟩
  | @tail y z run next ih =>
    have sound := Reachable.sound ⟨inline, run⟩
    cases next with
    | step => exact sound.underway_step ih
    | ask idle lawful =>
      have underway : ({ y with log := [], answer := none } : Executor).Underway :=
        ⟨ih.begun, ih.within, ih.vacates⟩
      exact sound.cleared.underway_ask underway idle lawful

end Executor

end MessageBus
