import MessageBus.Proofs.Asides
import MessageBus.Proofs.Unfolding.Tasks

/-!
# Every step is in the list

Whatever frame is on top, the step that takes it off does one of the things that `Unfolds` lists.
-/

namespace MessageBus.Executor

variable {x : Executor} {w : Waker} {f : Frame} {rest : List Frame}

theorem unfolds_wake {later : List Waker} (none : x.errand? = none) :
    x.Unfolds rest (({ x with stack := rest } : Executor).perform (.wake (w :: later)))
      (.wake (w :: later)) := by
  rw [perform, rouse]
  cases found : ((({ x with stack := rest } : Executor).push [.wake later]).happen
    (.woken w)).tasks[w.task]? with
  | none =>
    exact .readies none ⟨rfl, rfl, rfl, rfl, rfl, rfl⟩ (.inl rfl)
      (fun task there => by cases found.symm.trans there) rfl
  | some task =>
    cases alive : task.isAlive
    · simp only [alive, Bool.false_eq_true, ite_false]
      refine .readies none ⟨rfl, rfl, rfl, rfl, rfl, rfl⟩ (.inl rfl)
        (fun task' there ended => ?_) rfl
      cases found.symm.trans there
      exact absurd (by simpa [Task.isAlive] using alive) ended
    · simp only [alive, ite_true]
      split
      · rename_i now
        rw [Bool.and_eq_true] at now
        have idle : task.life = .idle := by simpa [Task.isIdle] using now.2
        exact .polls none found idle ⟨rfl, rfl, rfl, rfl, rfl, rfl⟩ rfl
      · split
        · rename_i ready
          refine .readies none ⟨rfl, rfl, rfl, rfl, rfl, rfl⟩ (.inl rfl) (fun _ _ _ => ?_) rfl
          simpa using ready
        · exact .readies none ⟨rfl, rfl, rfl, rfl, rfl, rfl⟩ (.inr rfl)
            (fun _ _ _ => List.mem_append_right _ (List.mem_singleton_self _)) rfl

theorem unfolds_drain {limit : Option Nat} {polled : Nat} (none : x.errand? = none) :
    x.Unfolds rest (({ x with stack := rest } : Executor).drain limit polled)
      (.drain limit polled) := by
  have passes (y : Executor) (leads : x.Leads y x.buses x.tasks rest) :
      x.Unfolds rest y (.drain limit polled) :=
    .quiet none (.passes trivial) (by rwa [List.modify_id])
  unfold drain
  split
  · exact passes _ ⟨rfl, rfl, rfl, rfl, rfl, rfl⟩
  · exact passes _ ⟨rfl, rfl, rfl, rfl, rfl, rfl⟩
  · rename_i t later _ ready
    dsimp only
    split
    · exact .drains none ready (.inl rfl) ⟨rfl, rfl, rfl, rfl, rfl, rfl⟩ rfl
    · rename_i ended
      refine .drains none ready (.inr ⟨rfl, fun task there => ?_⟩)
        ⟨rfl, rfl, rfl, rfl, rfl, rfl⟩ rfl
      have there : x.tasks[t]? = some task := there
      simpa [there, Task.isAlive] using ended

/-- A step does one of these things. -/
theorem step_unfolds (stack : x.stack = f :: rest) : x.Unfolds rest x.step f := by
  rw [step_of_stack_cons stack]
  have passes (none : x.errand? = none) (idle : f.IsIdle x.tasks) (y : Executor)
      (leads : x.Leads y x.buses x.tasks rest) : x.Unfolds rest y f :=
    .quiet none (.passes idle) (by rwa [List.modify_id])
  have taken : x.Leads { x with stack := rest } x.buses x.tasks rest :=
    ⟨rfl, rfl, rfl, rfl, rfl, rfl⟩
  have withTask {t : Nat} {go : Task → Executor}
      (missing : x.tasks[t]? = none → x.Unfolds rest { x with stack := rest } f)
      (there : ∀ task, x.tasks[t]? = some task → x.Unfolds rest (go task) f) :
      x.Unfolds rest (({ x with stack := rest } : Executor).withTask t go) f :=
    withTask_cases (motive := (x.Unfolds rest · f)) missing there
  cases f with
  | release b =>
    exact .releases (by rw [errand?, stack]) ⟨rfl, rfl, rfl, rfl, rfl, rfl⟩
  | wake wakers =>
    have none : x.errand? = none := by rw [errand?, stack]
    cases wakers with
    | nil => exact passes none rfl _ taken
    | cons w later => exact unfolds_wake none
  | tell notes =>
    obtain ⟨buses, tasks, stack'⟩ := ({ x with stack := rest } : Executor).tell_same notes
    obtain ⟨calls, ready, inline⟩ := ({ x with stack := rest } : Executor).wokenIn_tell notes
    exact passes (by rw [errand?, stack]) trivial _ ⟨buses, tasks, stack', ready, inline, calls⟩
  | poll w =>
    have none : x.errand? = none := by rw [errand?, stack]
    refine withTask (fun missing => ?_) fun task found => ?_
    · exact passes none (fun task there => by cases missing.symm.trans there) _ taken
    · cases life : task.isIdle
      · refine passes none (fun task' there idle => ?_) _ taken
        cases found.symm.trans there
        simp [Task.isIdle, idle] at life
      · have idle : task.life = .idle := by simpa [Task.isIdle] using life
        exact .quiet none (.begins found idle) ⟨rfl, rfl, rfl, rfl, rfl, rfl⟩
  | proceed w =>
    refine withTask (fun missing => ?_) fun task found => ?_
    · exact passes (by simp [errand?, stack, missing]) missing _ taken
    · exact unfolds_proceed found (by simp [errand?, stack, found])
  | suspend t =>
    exact .quiet (by rw [errand?, stack]) .suspends ⟨rfl, rfl, rfl, rfl, rfl, rfl⟩
  | complete caller reply =>
    have none : x.errand? = none := by rw [errand?, stack]
    cases caller with
    | outside => exact passes none trivial _ ⟨rfl, rfl, rfl, rfl, rfl, rfl⟩
    | task w =>
      refine withTask (fun missing => passes none missing _ taken) fun task found => ?_
      exact .quiet none (.completes found) ⟨rfl, rfl, rfl, rfl, rfl, rfl⟩
  | receive w item =>
    have none : x.errand? = none := by rw [errand?, stack]
    refine withTask (fun missing => passes none missing _ taken) fun task found => ?_
    rw [receive]
    split
    · rename_i current
      cases item with
      | none => exact .quiet none (.replies rfl trivial) ((leading_push w.task _).leads x rest)
      | some m => exact .quiet none (.collects found current) ⟨rfl, rfl, rfl, rfl, rfl, rfl⟩
    · exact .quiet none (.replies rfl trivial) ((leading_push w.task _).leads x rest)
  | adopt w s => exact unfolds_replaceStream (by rw [errand?, stack]) .adopts
  | observe t =>
    have none : x.errand? = none := by rw [errand?, stack]
    refine withTask (fun _ => passes none trivial _ taken) fun task found => ?_
    rcases observe_cases { x with stack := rest } t task with
      unchanged | ⟨bus, p, before, after, after', progress, changed⟩
    · rw [unchanged]
      exact passes none trivial _ taken
    · rw [changed]
      exact .quiet none (.observes found progress) ⟨rfl, rfl, rfl, rfl, rfl, rfl⟩
  | conclude w before after b a side result =>
    exact .quiet (by rw [errand?, stack]) (.replies rfl trivial)
      ((leading_push w.task _).leads x rest)
  | finish t =>
    exact .quiet (by rw [errand?, stack]) .finishes ⟨rfl, rfl, rfl, rfl, rfl, rfl⟩
  | vacate t =>
    refine withTask (fun missing => ?_) fun task found => ?_
    · exact passes (by simp [errand?, stack, missing])
        (fun task there => by cases missing.symm.trans there) _ taken
    · exact unfolds_vacate found (by simp [errand?, stack, found])
  | leave t =>
    have none : x.errand? = none := by rw [errand?, stack]
    refine withTask (fun missing => ?_) fun task found => ?_
    · exact passes none (fun task there => by cases missing.symm.trans there) _ taken
    · by_cases running : task.life = .running
      · rw [if_pos running]
        exact .quiet none (.breaksOff found running) ⟨rfl, rfl, rfl, rfl, rfl, rfl⟩
      · rw [if_neg running]
        refine passes none (fun task' there => ?_) _ taken
        cases found.symm.trans there
        exact running
  | drain limit polled => exact unfolds_drain (by rw [errand?, stack])
  | verdict t =>
    have none : x.errand? = none := by rw [errand?, stack]
    refine withTask (fun _ => passes none trivial _ taken) fun task found => ?_
    exact passes none trivial _ ⟨rfl, rfl, rfl, rfl, rfl, rfl⟩

end MessageBus.Executor
