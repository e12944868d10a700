import MessageBus.Proofs.Unfolding.Tasks
import MessageBus.Script

/-!
# What a request from outside can do

Taking in a request is no step of its own, but it changes the executor as a step does, and the list
of what it can do is `Executor.Asked`. An operation is carried out at once; for everything else a
frame is put on the stack, or the answer is given.
-/

namespace MessageBus

/-- The bus that a request from outside enters at once, and on what errand. -/
def Step.errand? : Step → Option (Nat × Errand Waker)
  | .act b (.operate op) => some (b, .operate op)
  | _ => none

namespace Executor

/-- What taking in a request can do. -/
inductive Asked (x y : Executor) : Step → Prop where
  /-- It is answered, or is to be answered next. -/
  | answers {s frames} (none : s.errand? = none)
      (answer : frames = [] ∨ ∃ reply, frames = [.complete .outside reply])
      (leads : x.Leads y x.buses x.tasks (frames ++ x.stack)) : Asked x y s
  | runs {limit} (leads : x.Leads y x.buses x.tasks (.drain limit 0 :: x.stack)) :
    Asked x y (.run limit)
  | polls {w task} (found : x.tasks[w.task]? = some task) (idle : task.life = .idle)
      (leads : x.Leads y x.buses x.tasks (.poll w :: .verdict w.task :: x.stack)) :
    Asked x y (.poll w)
  | drops {b t task reply} (found : x.tasks[t]? = some task) (idle : task.life = .idle)
      (leads : x.Leads y x.buses (x.tasks.modify t ({ · with life := .ended }))
        (.vacate t :: .complete .outside reply :: x.stack)) :
    Asked x y (.act b (.drop t))
  | dropsInUse {b t change frames} (life : ∀ task, ∃ life, change task = { task with life })
      (leads : x.Leads y (x.buses.modify b ({ · with inUse := true })) (x.tasks.modify t change)
        (frames ++ x.stack)) (own : ∀ f ∈ frames, f.turn? = none) : Asked x y (.dropInUse b t)
  | adds (leads : x.Leads y (x.buses ++ [.empty]) x.tasks x.stack) : Asked x y .addBus
  | spawns {program stopsOnError}
      (leads : x.Leads { y with ready := x.ready } x.buses
        (x.tasks ++ [.new program stopsOnError]) x.stack)
      (ready : y.ready = x.ready ++ [x.tasks.length]) : Asked x y (.spawn program stopsOnError)
  | operates {b op} {o : Outcome (Registry Waker) Waker Reply}
      (ran : op.apply (x.registry b) = .ok o)
      (carried : x.carried b (.operate op) =
        some (o.map ({ transfers := op.transfers (x.registry b) · })))
      (leads : x.Leads y (x.buses.set b ⟨o.state, true⟩) x.tasks
        (.release b :: .wake o.woken :: .tell o.afterwards :: .complete .outside o.answer ::
          x.stack)) : Asked x y (.act b (.operate op))
  | fails {b op} (failed : x.carried b (.operate op) = none) (buses : y.buses = x.buses)
      (tasks : y.tasks = x.tasks) (stack : ∀ f ∈ y.stack, f ∈ x.stack) :
    Asked x y (.act b (.operate op))

variable {x : Executor}

/-- An operation that is asked for from outside. -/
theorem asked_operation (x : Executor) (b : Nat) (op : Operation) :
    x.Asked (x.act b .outside (.operate op)) (.act b (.operate op)) := by
  have failing (failed : x.carried b (.operate op) = none) (fault : Fault) :
      x.Asked (x.fail fault) (.act b (.operate op)) :=
    .fails failed rfl rfl fun f member => (List.mem_filter.1 member).1
  rw [act, access]
  cases there : x.buses[b]? with
  | none => exact failing (by rw [carried, there]; rfl) _
  | some bus =>
    have registry := registry_of_bus there
    cases inUse : bus.inUse
    · obtain ⟨o, ran, -⟩ := op.apply_handles bus.registry
      have carried : x.carried b (.operate op) =
          some (o.map ({ transfers := op.transfers (x.registry b) · })) := by
        simp [carried, there, inUse, Errand.effect, ran, Except.map, Except.toOption, registry]
      simp only [inUse, Bool.false_eq_true, ite_false, ran]
      let entered : Executor := { x with buses := x.buses.set b ⟨o.state, true⟩ }
      obtain ⟨buses, tasks, stack⟩ := entered.tell_same o.notes
      obtain ⟨calls, ready, inline⟩ := entered.wokenIn_tell o.notes
      exact .operates (registry ▸ ran) carried
        ⟨buses, tasks, congrArg (_ :: _ :: _ :: _ :: ·) stack, ready, inline, calls⟩
    · simp only [inUse, ite_true]
      exact failing (by simp [carried, there, inUse]) _

/-- Taking in a request does one of these things. -/
theorem ask_asked (x : Executor) (s : Step) : x.Asked (x.ask s) s := by
  have same (frames : List Frame) (y : Executor)
      (stack : y = { x with stack := frames ++ x.stack }) :
      x.Leads y x.buses x.tasks (frames ++ x.stack) := by
    subst stack
    exact ⟨rfl, rfl, rfl, rfl, rfl, rfl⟩
  cases s with
  | act b action =>
    cases action with
    | operate op => exact x.asked_operation b op
    | drop t =>
      rw [ask, act, dropTask]
      cases found : x.tasks[t]? with
      | none => exact .answers rfl (.inr ⟨_, rfl⟩) (same _ _ rfl)
      | some task =>
        cases life : task.isIdle
        · simp only [life, Bool.false_eq_true, ite_false]
          exact .answers rfl (.inr ⟨_, rfl⟩) (same _ _ rfl)
        · simp only [life, ite_true]
          have idle : task.life = .idle := by simpa [Task.isIdle] using life
          exact .drops found idle ⟨rfl, rfl, rfl, rfl, rfl, rfl⟩
    | setLastError code =>
      exact .answers rfl (.inr ⟨_, rfl⟩) ⟨rfl, rfl, rfl, rfl, rfl, rfl⟩
    | _ => exact .answers rfl (.inr ⟨_, rfl⟩) (same _ _ rfl)
  | addBus => exact .adds ⟨rfl, rfl, rfl, rfl, rfl, rfl⟩
  | spawn program stopsOnError => exact .spawns ⟨rfl, rfl, rfl, rfl, rfl, rfl⟩ rfl
  | run limit => exact .runs (same [_] _ rfl)
  | poll w =>
    rw [ask]
    cases found : x.tasks[w.task]? with
    | none => exact .answers rfl (.inl rfl) ⟨rfl, rfl, rfl, rfl, rfl, rfl⟩
    | some task =>
      cases life : task.isIdle
      · simp only [life, Option.map_some, Option.getD_some, Bool.false_eq_true, ite_false]
        exact .answers rfl (.inl rfl) ⟨rfl, rfl, rfl, rfl, rfl, rfl⟩
      · simp only [life, Option.map_some, Option.getD_some, ite_true]
        have idle : task.life = .idle := by simpa [Task.isIdle] using life
        exact .polls found idle (same [_, _] _ rfl)
  | dropInUse b t =>
    have alone (reply : Reply) : ∀ f ∈ [Frame.release b, .complete .outside reply],
        f.turn? = none := by
      intro f member
      rcases List.mem_cons.1 member with rfl | member
      · rfl
      · rw [List.mem_singleton.1 member]
        rfl
    have same (task : Task) : ∃ life, id task = { task with life } := ⟨task.life, rfl⟩
    have ends (task : Task) : ∃ life, { task with life := .ended } = { task with life } :=
      ⟨.ended, rfl⟩
    have tasks := (List.modify_id t x.tasks).symm
    rw [ask, dropTask]
    split
    · exact .dropsInUse same ⟨rfl, tasks, rfl, rfl, rfl, rfl⟩ (alone _)
    · split
      · exact .dropsInUse ends ⟨rfl, rfl, rfl, rfl, rfl, rfl⟩
          (List.forall_mem_cons.2 ⟨rfl, alone _⟩)
      · exact .dropsInUse same ⟨rfl, tasks, rfl, rfl, rfl, rfl⟩ (alone _)
  | report => exact .answers rfl (.inl rfl) ⟨rfl, rfl, rfl, rfl, rfl, rfl⟩

end Executor

end MessageBus
