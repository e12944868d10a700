import MessageBus.Proofs.AnyRun

/-!
# What a task keeps fits its instruction

What a task keeps while it is suspended belongs to the instruction that it is at: a request to a
call or to a receive from a known channel, collected items to a stream that is collected, and so
on (`Task.Fits`). Whether the failure of a request counts as the last error can thus be told from
the instruction. This holds in every run, also after something was broken off.
-/

namespace MessageBus

/-- Whether this may be kept while the deed is going on. -/
def Progress.IsOf (deed : Deed) : Progress → Prop
  | .fresh => True
  | .calling _ _ _ true => ∃ c, deed = .call c
  | .calling _ _ _ false => ∃ h, deed = .recvFrom h
  | .yielded => deed = .yield
  | .collecting _ => deed = .collect
  | .waiting _ _ _ _ => ∃ h side, deed = .wait h side

namespace Task

/-- Whether a task keeps nothing that is not of its current instruction. -/
def Fits (task : Task) : Prop :=
  task.progress = .fresh ∨ ∃ i, task.current? = some i ∧ task.progress.IsOf i.deed

variable {task task' : Task}

theorem fits_of_fresh (fresh : task.progress = .fresh) : task.Fits := .inl fresh

/-- A task that keeps the same at the same instruction fits it as before. -/
theorem Fits.of_same (fits : task.Fits) (current : task'.current? = task.current?)
    (progress : task'.progress = task.progress) : task'.Fits := by
  rw [Fits, current, progress]
  exact fits

theorem Fits.giveUpPlace (fits : task.Fits) : task.giveUpPlace.Fits := by
  rw [Task.giveUpPlace]
  split
  · exact fits_of_fresh rfl
  · exact fits.of_same rfl rfl

end Task

namespace Executor

variable {x y : Executor} {f : Frame} {t b : Nat} {task : Task} {e : Errand Waker}
  {o : Outcome (Registry Waker) Waker Upshot} {change : Task → Task} {frames : List Frame}
  {p : Place}

theorem Forgets.fits (forgets : x.Forgets f b p t change frames) (fits : task.Fits) :
    (change task).Fits := by
  cases forgets with
  | stream _ _ _ => exact fits.of_same rfl rfl
  | place _ _ => exact fits.giveUpPlace

theorem Quiet.fits (quiet : x.Quiet f t change frames) (found : x.tasks[t]? = some task)
    (fits : task.Fits) : (change task).Fits := by
  cases quiet with
  | observes found' progress =>
    cases found.symm.trans found'
    rcases fits with fresh | ⟨i, current, isOf⟩
    · cases progress.symm.trans fresh
    · rw [progress] at isOf
      exact .inr ⟨i, current, isOf⟩
  | breaksOff _ _ | completes _ => exact Task.fits_of_fresh rfl
  | collects found' current =>
    cases found.symm.trans found'
    exact .inr ⟨_, current, rfl⟩
  | yields found' _ current =>
    cases found.symm.trans found'
    exact .inr ⟨_, current, rfl⟩
  | _ => exact fits.of_same rfl rfl

/-- A request that a task looks at is kept by it as what it is. -/
theorem Pursues.isOf {q q' : Request} {prior prior' : Option Place} {recorded : Bool}
    (pursues : x.Pursues task b q prior recorded) (fits : task.Fits) :
    ∃ i, task.current? = some i ∧ (Progress.calling b q' prior' recorded).IsOf i.deed := by
  cases pursues with
  | calling progress =>
    rcases fits with fresh | ⟨i, current, isOf⟩
    · cases progress.symm.trans fresh
    · rw [progress] at isOf
      exact ⟨i, current, by cases recorded <;> exact isOf⟩
  | call _ current _ => exact ⟨_, current, _, rfl⟩
  | recvFrom _ current _ => exact ⟨_, current, _, rfl⟩

theorem Sequel.fits (sequel : x.Sequel f b e o t change frames) (found : x.tasks[t]? = some task)
    (fits : task.Fits) : (change task).Fits := by
  cases sequel with
  | @looks _ _ _ q _ recorded p found' pursues _ =>
    cases found.symm.trans found'
    cases p.answer with
    | finished _ => exact Task.fits_of_fresh rfl
    | parked _ _ | again _ => exact .inr (pursues.isOf fits)
    | waiting => exact fits
  | @looksAtStream _ _ _ _ p _ _ _ _ _ =>
    rcases p.answer with ⟨_ | _⟩ | _ | _ | _ <;> exact fits.of_same rfl rfl
  | fails _ _ _ _ | wakes _ _ _ => exact Task.fits_of_fresh rfl
  | resolves _ _ _ remembers =>
    obtain ⟨_, same⟩ := remembers task
    rw [same]
    exact fits.of_same rfl rfl
  | parks found' _ current _ _ =>
    cases found.symm.trans found'
    exact .inr ⟨_, current, _, _, rfl⟩
  | abandons forgets => exact forgets.fits fits
  | _ => exact fits

/-- Whether every task keeps what fits its instruction. -/
def AllFit (x : Executor) : Prop :=
  ∀ (t : Nat) (task : Task), x.tasks[t]? = some task → task.Fits

theorem AllFit.of_tasks (fit : x.AllFit) (tasks : y.tasks = x.tasks) : y.AllFit := by
  rw [AllFit, tasks]
  exact fit

theorem AllFit.modify (fit : x.AllFit) (tasks : y.tasks = x.tasks.modify t change)
    (kept : ∀ task, x.tasks[t]? = some task → task.Fits → (change task).Fits) : y.AllFit := by
  intro t' task' found
  rw [tasks] at found
  obtain ⟨task, before, ⟨rfl, rfl⟩ | ⟨-, rfl⟩⟩ := getElem?_modify_cases found
  · exact kept task before (fit _ _ before)
  · exact fit _ _ before

theorem AllFit.step (fit : x.AllFit) : x.step.AllFit := by
  cases stack : x.stack with
  | nil =>
    rw [step_of_stack_nil stack]
    exact fit
  | cons f rest =>
    cases x.step_unfolds stack with
    | quiet _ quiet leads => exact fit.modify leads.tasks fun _ found => quiet.fits found
    | releases _ leads => exact fit.of_tasks leads.tasks
    | polls _ _ _ leads _ | readies _ leads _ _ _ | drains _ _ _ leads _ =>
      exact fit.of_tasks leads.tasks
    | enters _ _ sequel leads => exact fit.modify leads.tasks fun _ found => sequel.fits found
    | fails _ _ _ _ tasks _ =>
      rcases tasks with same | ⟨_, _, _, _, -, forgets, changed⟩
      · exact fit.of_tasks same
      · exact fit.modify changed fun _ _ => forgets.fits

theorem AllFit.ask (fit : x.AllFit) (s : Step) : (x.ask s).AllFit := by
  have lives {t : Nat} {change : Task → Task}
      (life : ∀ task, ∃ life, change task = { task with life })
      (tasks : (x.ask s).tasks = x.tasks.modify t change) : (x.ask s).AllFit :=
    fit.modify tasks fun task _ fits => by
      obtain ⟨_, same⟩ := life task
      rw [same]
      exact fits.of_same rfl rfl
  cases x.ask_asked s with
  | answers _ _ leads | runs leads | polls _ _ leads | adds leads | operates _ _ leads =>
    exact fit.of_tasks leads.tasks
  | drops _ _ leads => exact lives (fun task => ⟨.ended, rfl⟩) leads.tasks
  | dropsInUse life leads _ => exact lives life leads.tasks
  | spawns leads _ =>
    intro t task found
    have tasks : (x.ask (.spawn _ _)).tasks = _ := leads.tasks
    rw [tasks, List.getElem?_append] at found
    split at found
    · exact fit t task found
    · obtain rfl := List.mem_singleton.1 (List.mem_of_getElem? found)
      exact Task.fits_of_fresh rfl
  | fails _ _ tasks _ => exact fit.of_tasks tasks

theorem AllFit.follows (fit : x.AllFit) (follows : x.Follows y) : y.AllFit := by
  cases follows with
  | step => exact fit.step
  | ask s => exact (fit.of_tasks (y := { x with log := [], answer := none }) rfl).ask s

/-- In every run, what a task keeps fits its instruction. -/
theorem Arises.allFit (arises : x.Arises) : x.AllFit := by
  obtain ⟨inline, run⟩ := arises
  induction run with
  | refl => exact fun t task found => by simp [new] at found
  | tail _ follows ih => exact ih.follows follows

end Executor

end MessageBus
