import MessageBus.Proofs.Trades

/-!
# The wakers that are called

A waker is called because it was handed out by an errand, or because a task that lets the others go
first calls its own. Between that and the call it is due: it waits in a frame. No step loses one and
none calls one twice (`Sound.calls_step`).
-/

namespace MessageBus

/-- The wakers that are called for a frame. -/
def Frame.due : Frame → List Waker
  | .wake wakers => wakers
  | _ => []

theorem Frame.due_of_turn {f : Frame} {t : Nat} (own : f.turn? = some t) : f.due = [] := by
  cases f with
  | wake _ => cases own
  | _ => rfl

namespace Executor

variable {u : Usage} {x : Executor} {f : Frame} {t b : Nat} {e : Errand Waker}
  {change : Task → Task} {frames rest : List Frame}

/-- The wakers that are still to be called, in the order of their frames. -/
def due (x : Executor) : List Waker := x.stack.flatMap (·.due)

/-- The waker that a task calls in the next step to let the others go first. -/
def yielding (x : Executor) : List Waker :=
  match x.stack with
  | .proceed w :: _ => if ((x.tasks[w.task]?).map (·.yields)).getD false then [w] else []
  | _ => []

/-- The wakers that an errand hands out. -/
def wokenBy (x : Executor) (errand : Option (Nat × Errand Waker)) : List Waker :=
  ((errand.bind fun entry => x.carried entry.1 entry.2).map (·.woken)).getD []

theorem yielding_of_proceed {w : Waker} {task : Task} (stack : x.stack = .proceed w :: rest)
    (found : x.tasks[w.task]? = some task) : x.yielding = if task.yields then [w] else [] := by
  rw [yielding, stack]
  simp only [found]
  rfl

/-- Only a task that goes on lets the others go first. -/
theorem yielding_of_other (stack : x.stack = f :: rest) (other : ∀ w, f ≠ .proceed w) :
    x.yielding = [] := by
  rw [yielding, stack]
  split
  · rename_i same
    cases same
    exact absurd rfl (other _)
  · rfl

/-- Who enters a bus does not let the others go first. -/
theorem yielding_of_errand (errand : x.errand? = some (b, e)) : x.yielding = [] := by
  rw [errand?] at errand
  split at errand
  · rename_i w rest stack
    obtain ⟨task, found, errand⟩ := Option.bind_eq_some_iff.1 errand
    rw [yielding_of_proceed stack found]
    cases yields : task.yields
    · rfl
    · rw [Task.yields, Bool.and_eq_true, decide_eq_true_eq, decide_eq_true_eq] at yields
      obtain ⟨fresh, deed⟩ := yields
      obtain ⟨i, current, deed⟩ := Option.map_eq_some_iff.1 deed
      rw [taskErrand?, fresh] at errand
      simp only [current, startErrand?, deed] at errand
      cases errand
  · rename_i stack
    rw [yielding, stack]
  · rename_i stack
    rw [yielding, stack]
  · cases errand

theorem Replaces.due {stream : Option Stream} {next : Frame}
    (replaces : x.Replaces f t stream next) (stack : x.stack = f :: rest) :
    f.due = [] ∧ next.due = [] ∧ x.yielding = [] := by
  cases replaces with
  | ends found fresh ended =>
    refine ⟨rfl, rfl, ?_⟩
    rw [yielding_of_proceed stack found]
    simp [Task.yields, ended]
  | drops found fresh current =>
    refine ⟨rfl, rfl, ?_⟩
    rw [yielding_of_proceed stack found]
    simp [Task.yields, current]
  | adopts => exact ⟨rfl, rfl, by rw [yielding, stack]⟩

/-- Where no bus is entered, only a task that lets the others go first has a waker called. -/
theorem Quiet.due (quiet : x.Quiet f t change frames) (stack : x.stack = f :: rest) :
    f.due = [] ∧ frames.flatMap (·.due) = x.yielding := by
  cases quiet with
  | passes idle =>
    cases f with
    | wake wakers => exact ⟨idle, (yielding_of_other stack fun _ => Frame.noConfusion).symm⟩
    | proceed w =>
      have none : x.tasks[w.task]? = none := idle
      refine ⟨rfl, ?_⟩
      rw [yielding, stack]
      simp only [none]
      rfl
    | _ => exact ⟨rfl, (yielding_of_other stack fun _ => Frame.noConfusion).symm⟩
  | replies own prompt =>
    refine ⟨Frame.due_of_turn own, ?_⟩
    cases f with
    | proceed w =>
      obtain ⟨task, found, -, prompt⟩ := prompt
      rw [yielding_of_proceed stack found]
      rcases prompt with yielded | ⟨-, ⟨-, looks⟩ | ⟨items, collecting⟩⟩ | ⟨-, -, not, -⟩
      · simp [Task.yields, yielded, Frame.due]
      · rw [Task.looksAtStream] at looks
        split at looks <;> simp_all [Task.yields, Frame.due]
      · simp [Task.yields, collecting, Frame.due]
      · simp [not, Frame.due]
    | _ => exact (yielding_of_other stack fun _ => Frame.noConfusion).symm
  | yields found fresh current =>
    refine ⟨rfl, ?_⟩
    rw [yielding_of_proceed stack found]
    simp [Task.yields, fresh, current, Frame.due]
  | streamEnds found atStream _ _ =>
    refine ⟨rfl, ?_⟩
    rw [yielding_of_proceed stack found]
    rcases atStream with ⟨-, looks⟩ | ⟨items, collecting⟩
    · rw [Task.looksAtStream] at looks
      split at looks <;> simp_all [Task.yields, Frame.due]
    · simp [Task.yields, collecting, Frame.due]
  | drops found fresh current _ _ =>
    refine ⟨rfl, ?_⟩
    rw [yielding_of_proceed stack found]
    simp [Task.yields, current, Frame.due]
  | replaces replaces _ =>
    obtain ⟨top, next, none⟩ := replaces.due stack
    refine ⟨top, ?_⟩
    rw [none, List.flatMap_singleton, next]
  | _ => exact ⟨rfl, (yielding_of_other stack fun _ => Frame.noConfusion).symm⟩

/-- After an errand only those wakers are called that it handed out. -/
theorem Sequel.due {o : Outcome (Registry Waker) Waker Upshot}
    (sequel : x.Sequel f b e o t change frames) :
    f.due = [] ∧ frames.flatMap (·.due) = [] := by
  have turn {f : Frame} {t : Nat} (own : f.turn? = some t) : [f].flatMap (·.due) = [] := by
    rw [List.flatMap_singleton, Frame.due_of_turn own]
  cases sequel with
  | @looks w _ _ _ _ _ p =>
    refine ⟨rfl, turn (t := w.task) ?_⟩
    cases p.answer <;> rfl
  | @looksAtStream w task _ _ p =>
    refine ⟨rfl, turn (t := w.task) ?_⟩
    rcases p.answer with ⟨_ | _⟩ | _ | _ | _
    · rfl
    · rfl
    · exact task.turn_ifPending w
    · exact task.turn_ifPending w
    · rfl
  | abandons forgets =>
    cases forgets with
    | stream replaces _ _ => cases replaces <;> exact ⟨rfl, rfl⟩
    | place _ _ => exact ⟨rfl, rfl⟩
  | _ => exact ⟨rfl, rfl⟩

/-- The wakers that were called or are due after a step are those before it, those that were handed
out, and the one of a task that lets the others go first. -/
theorem Sound.calls_step (sound : x.Sound u) : (wokenIn x.step.log ++ x.step.due).Perm
    (x.wokenBy x.errand? ++ (x.yielding ++ (wokenIn x.log ++ x.due))) := by
  cases stack : x.stack with
  | nil =>
    rw [step_of_stack_nil stack]
    simp [wokenBy, errand?, yielding, stack]
  | cons f rest =>
    have before : x.due = f.due ++ rest.flatMap (·.due) := by
      rw [Executor.due, stack, List.flatMap_cons]
    have after (frames : List Frame) (stack' : x.step.stack = frames ++ rest) :
        x.step.due = frames.flatMap (·.due) ++ rest.flatMap (·.due) := by
      rw [Executor.due, stack', List.flatMap_append]
    have nothing (none : x.errand? = none) : x.wokenBy x.errand? = [] := by
      rw [none]
      rfl
    cases x.step_unfolds stack with
    | @quiet _ _ _ frames none quiet leads =>
      obtain ⟨top, due⟩ := quiet.due stack
      rw [nothing none, leads.calls, after frames leads.stack, before, top, due]
      exact List.perm_append_comm_assoc _ _ _
    | releases none leads =>
      rw [nothing none, leads.calls, after [] leads.stack, before,
        yielding_of_other stack fun _ => Frame.noConfusion]
      exact .refl _
    | @polls w later _ none _ _ leads calls =>
      have stack' : x.step.stack = [.poll ⟨w.task, 0⟩, .wake later] ++ rest := leads.stack
      rw [nothing none, calls, after _ stack', before,
        yielding_of_other stack fun _ => Frame.noConfusion]
      simpa [Frame.due] using List.perm_middle.symm
    | @readies w later none leads _ _ calls =>
      have stack' : x.step.stack = [.wake later] ++ rest := leads.stack
      rw [nothing none, calls, after _ stack', before,
        yielding_of_other stack fun _ => Frame.noConfusion]
      simpa [Frame.due] using List.perm_middle.symm
    | @drains _ _ t _ frames limit polled none _ alive leads _ =>
      have stack' : x.step.stack = (frames ++ [.drain limit polled]) ++ rest := by
        have stack' : x.step.stack = _ := leads.stack
        rw [stack', List.append_assoc]
        rfl
      have due : (frames ++ [Frame.drain limit polled]).flatMap (·.due) = [] := by
        rcases alive with rfl | ⟨rfl, -⟩ <;> rfl
      have calls : wokenIn x.step.log = wokenIn x.log := leads.calls
      rw [nothing none, calls, after _ stack', due, before,
        yielding_of_other stack fun _ => Frame.noConfusion]
      exact .refl _
    | @enters _ b e o t change frames errand carried sequel leads =>
      obtain ⟨top, due⟩ := sequel.due
      have handed : x.wokenBy x.errand? = o.woken := by
        rw [wokenBy, errand, Option.bind_some, carried]
        rfl
      have stack' : x.step.stack =
          (.release b :: .wake o.woken :: .tell o.afterwards :: frames) ++ rest := leads.stack
      have woken : (Frame.release b :: .wake o.woken :: .tell o.afterwards :: frames).flatMap
          (·.due) = o.woken := by
        rw [List.flatMap_cons, List.flatMap_cons, List.flatMap_cons, due]
        exact List.append_nil _
      rw [handed, leads.calls, after _ stack', woken, before, top, yielding_of_errand errand]
      exact List.perm_append_comm_assoc _ _ _
    | fails errand failed _ _ _ _ => exact absurd failed (sound.carried errand)

/-- With a request from outside those wakers become due that it hands out. -/
theorem Sound.calls_ask (sound : x.Sound u) (idle : x.stack = []) {s : Step}
    (lawful : s.Lawful u x.buses.length) :
    (wokenIn (x.ask s).log ++ (x.ask s).due).Perm (x.wokenBy s.errand? ++ wokenIn x.log) := by
  have nothing (none : s.errand? = none) (frames : List Frame)
      (stack : (x.ask s).stack = frames ++ x.stack) (due : frames.flatMap (·.due) = [])
      (calls : wokenIn (x.ask s).log = wokenIn x.log) :
      (wokenIn (x.ask s).log ++ (x.ask s).due).Perm (x.wokenBy s.errand? ++ wokenIn x.log) := by
    rw [none, Executor.due, stack, idle, List.append_nil, due, calls, List.append_nil]
    exact .refl _
  cases x.ask_asked s with
  | @answers _ frames none answer leads =>
    refine nothing none frames leads.stack ?_ leads.calls
    rcases answer with rfl | ⟨reply, rfl⟩ <;> rfl
  | runs leads => exact nothing rfl [_] leads.stack rfl leads.calls
  | polls _ _ leads => exact nothing rfl [_, _] leads.stack rfl leads.calls
  | drops _ _ leads => exact nothing rfl [_, _] leads.stack rfl leads.calls
  | dropsInUse _ _ _ => exact lawful.elim
  | adds leads => exact nothing rfl [] leads.stack rfl leads.calls
  | spawns leads _ => exact nothing rfl [] leads.stack rfl leads.calls
  | @operates b op o _ carried leads =>
    have handed : x.wokenBy (Step.act b (.operate op)).errand? = o.woken := by
      rw [wokenBy, Step.errand?, Option.bind_some, carried]
      rfl
    rw [handed, Executor.due, leads.stack, idle, leads.calls]
    simpa [Frame.due] using List.perm_append_comm
  | fails failed _ _ _ =>
    exact absurd failed (sound.carried_of_free lawful (sound.calm_of_idle idle _) _)

end Executor

end MessageBus
