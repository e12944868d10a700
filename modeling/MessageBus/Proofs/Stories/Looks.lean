import MessageBus.Proofs.Catalogue.Errands
import MessageBus.Proofs.Refusals
import MessageBus.Proofs.Stories

/-!
# One step in a call

A task that goes on with a call looks at its request. The look grants the request
(`Executor.Grants`), or it moves no message (`Executor.Rests`): then the call failed, since its
channel is gone, or it waits. Granted is one thing even if the batch was empty, so a step that rests
must not have been granted anything, beside leaving the queues as they are.
-/

namespace MessageBus.Executor

variable {u : Usage} {x : Executor} {b : Nat} {e : Errand Waker} {task : Task} {w : Waker}
  {rest : List Frame} {q : Request}

/-- The next step leaves a registry on one bus, changes no other bus, and calls these wakers
next. -/
structure Changes (x : Executor) (b : Nat) (r : Registry Waker) (wakers : List Waker) : Prop where
  registry : x.step.registry b = r
  others : ∀ b' ≠ b, x.step.registry b' = x.registry b'
  calls : ∃ rest, x.step.stack = .release b :: .wake wakers :: rest

/-- The next step carries out a request, to this value. -/
def Grants (x : Executor) (b : Nat) (q : Request) (v : Value) : Prop :=
  ∃ o, q.attempt (x.registry b) = .ok o ∧ o.answer = .finished (.ok v) ∧
    x.Changes b o.state o.woken

/-- The next step brings no message to any bus and takes none from it, and carries out nothing that
could have done so. -/
structure Rests (x : Executor) : Prop where
  silent : x.MovesNothing
  moves : ∀ b, x.moved x.errand? b = []

theorem rests_of_none (none : x.errand? = none) : x.Rests := by
  refine ⟨movesNothing_of_none none, fun b => ?_⟩
  rw [moved, none]
  rfl

theorem rests_of_errand (errand : x.errand? = some (b, e))
    (kept : ∀ o, e.effect (x.registry b) = .ok o →
      o.state.catalogue = (x.registry b).catalogue ∧ o.answer.transfers = []) : x.Rests := by
  refine ⟨movesNothing_of_errand errand fun o ran => (kept o ran).1, fun b' => ?_⟩
  rw [moved, outcomeOn, errand, Option.bind_some]
  by_cases here : b = b'
  · subst here
    rw [if_pos rfl]
    cases carried : x.carried b e with
    | none => rfl
    | some o => exact (kept o (effect_of_carried carried)).2
  · rw [if_neg here]
    rfl

theorem rests_of_glance (errand : x.errand? = some (b, .glance)) : x.Rests :=
  rests_of_errand errand fun o ran => by cases ran; exact ⟨rfl, rfl⟩

theorem rests_of_abandon {p : Place} (errand : x.errand? = some (b, .abandon p)) : x.Rests :=
  rests_of_errand errand fun o ran => by
    cases ran
    exact ⟨(x.registry b).catalogue_abandon p, rfl⟩

/-- A look that grants nothing and leaves the queues rests. -/
theorem rests_of_look {prior : Option Place} {o : Outcome (Registry Waker) Waker Turn}
    (errand : x.errand? = some (b, .look q prior w)) (ran : q.look (x.registry b) prior w = .ok o)
    (kept : o.state.catalogue = (x.registry b).catalogue)
    (nothing : ∀ v, o.answer ≠ .finished (.ok v)) : x.Rests := by
  refine rests_of_errand errand fun o' ran' => ?_
  obtain ⟨o'', ran'', rfl⟩ := Outcome.of_map_eq_ok ran'
  cases ran.symm.trans ran''
  refine ⟨kept, ?_⟩
  show o.answer.transfers (x.registry b) q = []
  cases turn : o.answer with
  | finished result =>
    cases result with
    | ok v => exact absurd turn (nothing v)
    | error _ => rfl
  | parked _ _ | waiting | again _ => rfl

/-- What comes of a look at a request: the frame that goes on with the turn, and what the task
keeps. -/
inductive LookedAt (x : Executor) (w : Waker) (b : Nat) (q : Request) :
    Frame → Progress → Prop where
  | granted {v : Value} (grants : x.Grants b q v) :
    LookedAt x w b q (.complete (.task w) (.granted v)) .fresh
  | failed (rests : x.Rests) :
    LookedAt x w b q (.complete (.task w) (.refused .noSuchChannel)) .fresh
  | waits {p : Place} {recorded : Bool} (rests : x.Rests) :
    LookedAt x w b q (.suspend w.task) (.calling b q (some p) recorded)

theorem Sound.looks_at {prior : Option Place} {recorded : Bool} (sound : x.Sound u)
    (stack : x.stack = .proceed w :: rest) (found : x.tasks[w.task]? = some task)
    (pursues : x.Pursues task b q prior recorded) : ∃ wakers notes next progress,
      x.step.stack = .release b :: .wake wakers :: .tell notes :: next :: rest ∧
      x.step.tasks[w.task]? = some { task with progress } ∧ x.LookedAt w b q next progress := by
  obtain ⟨o, recorded', ran, inside, pursues', leads⟩ := sound.leads_of_look stack found pursues
  have after : x.step.tasks[w.task]? = some (o.answer.leaves b recorded' task) := by
    rw [leads.tasks, List.getElem?_modify_eq, found]
    rfl
  have changes : x.Changes b o.state o.woken :=
    ⟨registry_set_self inside leads.buses, fun b' other => registry_set_ne other leads.buses,
      _, leads.stack⟩
  have rests := rests_of_look (pursues.errand? stack found) ran
  suffices looked : ∃ progress, o.answer.leaves b recorded' task = { task with progress } ∧
      x.LookedAt w b q (o.answer.frame w) progress by
    obtain ⟨progress, same, looked⟩ := looked
    exact ⟨_, _, _, progress, leads.stack, same ▸ after, looked⟩
  have ends := Request.ends_of_look ran
  generalize o.answer = turn at ends rests
  generalize o.woken = woken at ends changes
  generalize o.state = r at ends changes rests
  cases ends with
  | @tried _ tried result out attempts answer =>
    refine ⟨.fresh, rfl, ?_⟩
    cases result with
    | ok v => exact .granted ⟨tried, attempts, answer, changes⟩
    | error e =>
      obtain ⟨rfl, same, -⟩ := Request.attempt_failed attempts answer
      exact .failed (rests (congrArg _ same) nofun)
  | parked _ _ _ parks => exact ⟨_, rfl, .waits (rests (Registry.catalogue_park parks) nofun)⟩
  | @waiting p queued =>
    have progress : task.progress = .calling b q (some p) recorded' := by
      cases pursues' with
      | calling progress => exact progress
    refine ⟨task.progress, rfl, ?_⟩
    rw [progress]
    exact .waits (rests ((x.registry b).catalogue_revisit p w) nofun)
  | gone _ => exact ⟨.fresh, rfl, .failed (rests rfl nofun)⟩

/-- A call whose channel is not there fails at once. -/
theorem Sound.fails_to_resolve {call : Call} {e : BusError} (sound : x.Sound u)
    (stack : x.stack = .proceed w :: rest) (found : x.tasks[w.task]? = some task)
    (fresh : task.progress = .fresh) (current : task.current? = some ⟨b, .call call⟩)
    (failed : call.resolve (x.registry b) = .error e) : ∃ wakers notes,
      x.step.stack = .release b :: .wake wakers :: .tell notes ::
        .complete (.task w) (.refused .noSuchChannel) :: rest ∧
      x.step.tasks[w.task]? = some { task with progress := .fresh } ∧ x.Rests := by
  have errand : x.errand? = some (b, .glance) := by
    rw [Executor.errand?, stack]
    simp only [found, Option.bind_some, taskErrand?, fresh, current, startErrand?, failed]
  obtain ⟨o, t, change, frames, -, sequel, leads⟩ := sound.enters stack errand
  have fails : t = w.task ∧ change = ({ · with progress := .fresh }) ∧
      frames = [.complete (.task w) (.refused .noSuchChannel)] := by
    cases sequel with
    | fails found' _ current' failed' =>
      cases found.symm.trans found'
      cases current.symm.trans current'
      rw [Call.resolve_failed failed']
      exact ⟨rfl, rfl, rfl⟩
    | resolvesStream found' _ current' =>
      cases found.symm.trans found'
      cases current.symm.trans current'
    | resolves found' _ current' _ =>
      cases found.symm.trans found'
      cases current.symm.trans current'
  obtain ⟨rfl, rfl, rfl⟩ := fails
  refine ⟨_, _, leads.stack, ?_, rests_of_glance errand⟩
  rw [leads.tasks, List.getElem?_modify_eq, found]
  rfl

end MessageBus.Executor
