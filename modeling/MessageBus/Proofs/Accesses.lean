import MessageBus.Proofs.Effects

/-!
# How an access goes

Whoever enters a bus is broken off by a fault, or goes on from the outcome of what was done there
(`Executor.Accessed`). What observers are told on the way changes neither a task nor the stack, nor
the slot of the last error.
-/

namespace MessageBus.Executor

variable {α : Type} {x : Executor} {b : Nat}

@[simp] theorem lastError_tellOne (x : Executor) (n : Note) :
    (x.tellOne n).lastError = x.lastError := by
  rw [tellOne]
  split <;> rfl

@[simp] theorem lastError_tell (x : Executor) (notes : List Note) :
    (x.tell notes).lastError = x.lastError := by
  induction notes generalizing x with
  | nil => rfl
  | cons n notes ih => exact (ih (x.tellOne n)).trans (lastError_tellOne x n)

/-- An executor that has entered a bus and told its observers so, with all else as it was. -/
structure Entering (x : Executor) (b : Nat) (r : Registry Waker) (told : Executor) : Prop where
  buses : told.buses = x.buses.set b ⟨r, true⟩
  tasks : told.tasks = x.tasks
  stack : told.stack = x.stack
  slot : told.lastError = x.lastError

/-- What comes of an access to a bus. -/
inductive Accessed (x : Executor) (b : Nat)
    (f : Registry Waker → Except Fault (Outcome (Registry Waker) Waker α))
    (next : α → Executor → Executor) : Executor → Prop where
  | broken (fault : Fault) : Accessed x b f next (x.fail fault)
  | entered {bus : SharedBus} {o : Outcome (Registry Waker) Waker α} {told : Executor}
      (there : x.buses[b]? = some bus) (free : bus.inUse = false) (ran : f bus.registry = .ok o)
      (entering : x.Entering b o.state told) :
    Accessed x b f next
      ((next o.answer told).push [.release b, .wake o.woken, .tell o.afterwards])

theorem access_accessed (x : Executor) (b : Nat)
    (f : Registry Waker → Except Fault (Outcome (Registry Waker) Waker α))
    (next : α → Executor → Executor) : x.Accessed b f next (x.access b f next) := by
  rw [access]
  cases there : x.buses[b]? with
  | none => exact .broken _
  | some bus =>
    cases inUse : bus.inUse with
    | true =>
      simp only [inUse, ite_true]
      exact .broken _
    | false =>
      simp only [inUse, Bool.false_eq_true, ite_false]
      cases ran : f bus.registry with
      | error fault => exact .broken fault
      | ok o =>
        let entered : Executor := { x with buses := x.buses.set b ⟨o.state, true⟩ }
        obtain ⟨buses, tasks, stack⟩ := entered.tell_same o.notes
        exact .entered there inUse ran ⟨buses, tasks, stack, lastError_tell entered o.notes⟩

theorem access_of_ran {bus : SharedBus}
    {f : Registry Waker → Except Fault (Outcome (Registry Waker) Waker α)}
    {o : Outcome (Registry Waker) Waker α} (there : x.buses[b]? = some bus)
    (free : bus.inUse = false) (ran : f bus.registry = .ok o)
    (next : α → Executor → Executor) :
    x.access b f next =
      (next o.answer (({ x with buses := x.buses.set b ⟨o.state, true⟩ } : Executor).tell
        o.notes)).push [.release b, .wake o.woken, .tell o.afterwards] := by
  rw [access, there]
  simp only [free, ran, Bool.false_eq_true, ite_false]

end MessageBus.Executor
