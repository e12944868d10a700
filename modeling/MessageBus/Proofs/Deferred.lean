import MessageBus.Proofs.Accounting.Counters
import MessageBus.Proofs.Asides
import MessageBus.Proofs.Unfolding
import MessageBus.Script

/-!
# Deferred wakeups

Where wakeups are deferred, a waker makes no task go on: it puts its task at the end of the ready
list, unless it is there already or is over. So the wakers that an access owes are called one after
the other, and nothing else happens until all were called. Where an access owes no wakeup, this is
so anyway.
-/

namespace MessageBus.Executor

variable {x : Executor} {w : Waker} {later wakers : List Waker} {f : Frame} {rest : List Frame}
  {b : Nat} {notes : List Note}

/-- The ready list after a deferred wakeup. -/
def readied (x : Executor) (w : Waker) : List Nat :=
  if ((x.tasks[w.task]?).map (·.isAlive)).getD false && !x.ready.contains w.task then
    x.ready ++ [w.task]
  else x.ready

theorem rouse_of_deferred (deferred : x.inline = false) (w : Waker) :
    x.rouse w = { x with ready := x.readied w } := by
  rw [rouse, readied]
  cases x.tasks[w.task]? with
  | none => rfl
  | some task =>
    have later : (x.inline && task.isIdle) = false := by rw [deferred, Bool.false_and]
    cases alive : task.isAlive
    · simp [alive]
    · cases ready : x.ready.contains w.task <;> simp [alive, later]

/-- A waker is called. -/
theorem step_wake_of_deferred (deferred : x.inline = false)
    (stack : x.stack = .wake (w :: later) :: rest) :
    x.step = { x with
      stack := .wake later :: rest
      ready := x.readied w
      log := .woken w :: x.log } := by
  rw [step_of_stack_cons stack, perform]
  exact rouse_of_deferred (x := (({ x with stack := rest } : Executor).push [.wake later]).happen
    (.woken w)) deferred w

theorem settle_of_stack_cons (stack : x.stack = f :: rest) (n : Nat) :
    settle (n + 1) x = settle n x.step := by
  rw [settle_succ, stack]
  rfl

/-- The ready list after deferred wakeups, one after the other. -/
def readiedAll (x : Executor) (wakers : List Waker) : List Nat :=
  wakers.foldl (fun ready w => ({ x with ready } : Executor).readied w) x.ready

theorem readiedAll_append (x : Executor) (wakers more : List Waker) :
    x.readiedAll (wakers ++ more) =
      ({ x with ready := x.readiedAll wakers } : Executor).readiedAll more := List.foldl_append

/-- Wakers are called in order, and nothing else happens meanwhile. -/
theorem settle_wakers (deferred : wakers ≠ [] → x.inline = false)
    (stack : x.stack = .wake wakers :: rest) :
    settle (wakers.length + 1) x = { x with
      stack := rest
      ready := x.readiedAll wakers
      log := (wakers.map .woken).reverse ++ x.log } := by
  induction wakers generalizing x with
  | nil =>
    rw [settle_of_stack_cons stack, step_of_stack_cons stack]
    rfl
  | cons w later ih =>
    have deferred := deferred (List.cons_ne_nil w later)
    have called := step_wake_of_deferred deferred stack
    have done := ih (x := x.step) (fun _ => by rw [called]; exact deferred) (by rw [called])
    rw [settle_of_stack_cons stack, List.length_cons, done, called, List.map_cons,
      List.reverse_cons, List.append_assoc]
    rfl

theorem wokenIn_map_woken (wakers : List Waker) (log : List Event) :
    wokenIn (wakers.map .woken ++ log) = wakers ++ wokenIn log := by
  induction wakers with
  | nil => rfl
  | cons w later ih => exact congrArg (w :: ·) ih

/-- What observers are told is kept in telemetry and in the log, and nowhere else. -/
theorem tell_eq (x : Executor) (notes : List Note) : ∃ log, wokenIn log = wokenIn x.log ∧
    x.tell notes = { x with telemetry := x.telemetry.noteAll notes, log } := by
  induction notes generalizing x with
  | nil => exact ⟨x.log, rfl, rfl⟩
  | cons n notes ih =>
    obtain ⟨log, calls, told⟩ := ih (x.tellOne n)
    have one : ∃ log, wokenIn log = wokenIn x.log ∧
        x.tellOne n = { x with telemetry := x.telemetry.note n, log } := by
      rw [tellOne]
      split
      · exact ⟨x.log, rfl, rfl⟩
      · exact ⟨.traced _ :: x.log, rfl, rfl⟩
    obtain ⟨log', calls', one⟩ := one
    rw [one] at told calls
    exact ⟨log, calls.trans calls', (congrArg (tell · notes) one).trans told⟩

/-- An access is over once the bus is given free, the wakers are called and the notes are told. -/
theorem settle_access_eq (deferred : wakers ≠ [] → x.inline = false)
    (stack : x.stack = .release b :: .wake wakers :: .tell notes :: rest) :
    settle (wakers.length + 3) x = ({ x with
      buses := x.buses.modify b ({ · with inUse := false })
      stack := rest
      ready := x.readiedAll wakers
      log := (wakers.map .woken).reverse ++ x.log } : Executor).tell notes := by
  have released : x.step = { x with
      buses := x.buses.modify b ({ · with inUse := false })
      stack := .wake wakers :: .tell notes :: rest } := step_of_stack_cons stack
  have stack' : x.step.stack = .wake wakers :: .tell notes :: rest := by rw [released]
  have woken := settle_wakers (fun owed => by rw [released]; exact deferred owed) stack'
  rw [settle_of_stack_cons stack, settle_add (wakers.length + 1) 1, woken, released]
  rfl

theorem settle_access_of_deferred (deferred : wakers ≠ [] → x.inline = false)
    (stack : x.stack = .release b :: .wake wakers :: .tell notes :: rest) : ∃ ready log,
      wokenIn log = wakers.reverse ++ wokenIn x.log ∧
      settle (wakers.length + 3) x = ({ x with
        buses := x.buses.modify b ({ · with inUse := false })
        stack := rest
        ready
        log } : Executor).tell notes := by
  refine ⟨_, _, ?_, settle_access_eq deferred stack⟩
  rw [← List.map_reverse, wokenIn_map_woken]

end MessageBus.Executor
