import MessageBus.Proofs.Steps
import MessageBus.Script

/-!
# Requests from outside

Whenever nothing is left to do, an executor may be asked for something from outside. What is asked
for has to name buses that are there, and drops no task while a bus is in use. It may act on a bus,
add tasks and buses, or have something else done next, and it keeps the executor sound.
-/

namespace MessageBus

/-- Everything that can be asked of a bus. Nobody waits there other than for a request. -/
def Usage.full : Usage := ⟨False, True⟩

/-- The same without broadcasts that may wait. -/
def Usage.withoutBroadcasts : Usage := ⟨False, False⟩

/-- What may be asked of an executor with `n` buses. -/
def Step.Lawful (u : Usage) (n : Nat) : Step → Prop
  | .act b _ => b < n
  | .spawn program _ => ∀ i ∈ program, i.Sound u n
  | .dropInUse _ _ => False
  | _ => True

section Decidable

variable {u : Usage} [bareWaits : Decidable u.bareWaits] [broadcasts : Decidable u.broadcasts]

instance (d : Deed) : Decidable (u.allows d) :=
  match d with
  | .wait _ _ => bareWaits
  | .call (.broadcast _) => broadcasts
  | .call (.send _ _) | .call (.sendMany _ _) | .call (.recv _) | .call (.recvMany _ _)
  | .act _ | .yield | .stream _ | .next | .tryNext | .collect | .hasEnded | .describeStream
  | .dropStream | .resolve _ | .recvFrom _ => .isTrue trivial

instance (n : Nat) (i : Instruction) : Decidable (i.Sound u n) :=
  inferInstanceAs (Decidable (_ ∧ _))

instance (n : Nat) (s : Step) : Decidable (s.Lawful u n) :=
  match s with
  | .act b _ => inferInstanceAs (Decidable (b < n))
  | .spawn program _ => inferInstanceAs (Decidable (∀ i ∈ program, i.Sound u n))
  | .dropInUse _ _ => .isFalse id
  | .addBus | .run _ | .poll _ | .report => .isTrue trivial

end Decidable

instance : Decidable Usage.full.bareWaits := .isFalse id

instance : Decidable Usage.full.broadcasts := .isTrue trivial

instance : Decidable Usage.withoutBroadcasts.bareWaits := .isFalse id

instance : Decidable Usage.withoutBroadcasts.broadcasts := .isFalse id

theorem Task.Sound.mono {u : Usage} {n n' : Nat} {task : Task} (sound : task.Sound u n)
    (le : n ≤ n') : task.Sound u n' where
  program i member := ⟨Nat.lt_of_lt_of_le (sound.program i member).1 le, (sound.program i member).2⟩
  progress := by
    have progress := sound.progress
    cases current : task.progress with
    | calling bus q prior recorded =>
      rw [current] at progress
      exact ⟨Nat.lt_of_lt_of_le progress.1 le, progress.2⟩
    | waiting bus p before after =>
      rw [current] at progress
      exact Nat.lt_of_lt_of_le progress le
    | _ => trivial
  stream s member := Nat.lt_of_lt_of_le (sound.stream s member) le

theorem Task.sound_new {u : Usage} {n : Nat} {program : List Instruction}
    (allowed : ∀ i ∈ program, i.Sound u n) (stopsOnError : Bool) :
    (Task.new program stopsOnError).Sound u n :=
  ⟨allowed, trivial, fun s member => by cases member⟩

namespace Executor

variable {u : Usage} {resumed : Nat → Request → Place → Prop} {x y : Executor}

/-- Between two requests no bus is in use. -/
theorem Sound.calm_of_idle (sound : x.Sound u) (idle : x.stack = []) (b : Nat) :
    x.isInUse b = false := by
  cases inUse : x.isInUse b
  · rfl
  · have top := sound.free b inUse
    rw [idle] at top
    cases top

/-- Between two requests, no task that is over holds a place. -/
theorem Sound.not_ended_of_places (sound : x.Sound u) (idle : x.stack = []) {t : Nat} {task : Task}
    (found : x.tasks[t]? = some task) (holds : task.places ≠ []) : task.life ≠ .ended := by
  intro ended
  rcases sound.vacated t task found ended with none | vacate
  · exact holds none
  · rw [idle] at vacate
    cases vacate

/-- Where empty buses are added, a bus is the one that was there before, or a new one. -/
theorem getElem?_append_empty {buses added : List SharedBus} (empty : ∀ b ∈ added, b = .empty)
    (b : Nat) : (buses ++ added)[b]? = buses[b]? ∨
      buses[b]? = none ∧ (buses ++ added)[b]? = some .empty := by
  rw [List.getElem?_append]
  split
  · exact .inl rfl
  · rename_i outside
    have none := List.getElem?_eq_none (Nat.le_of_not_lt outside)
    cases new : added[b - buses.length]? with
    | none => exact .inl none.symm
    | some bus => exact .inr ⟨none, by rw [empty bus (List.mem_of_getElem? new)]⟩

theorem registry_of_append {buses : List SharedBus} (buses' : y.buses = x.buses ++ buses)
    (empty : ∀ b ∈ buses, b = .empty) (b : Nat) : y.registry b = x.registry b := by
  rw [registry, registry, buses']
  rcases getElem?_append_empty empty b with same | ⟨none, added⟩
  · rw [same]
  · rw [none, added]
    rfl

theorem isInUse_of_append {buses : List SharedBus} (buses' : y.buses = x.buses ++ buses)
    (empty : ∀ b ∈ buses, b = .empty) (b : Nat) : y.isInUse b = x.isInUse b := by
  rw [isInUse, isInUse, buses']
  rcases getElem?_append_empty empty b with same | ⟨none, added⟩
  · rw [same]
  · rw [none, added]
    rfl

theorem staysOn_of_append {tasks : List Task} (tasks' : y.tasks = x.tasks ++ tasks)
    (none : ∀ t ∈ tasks, t.stays = []) (b : Nat) : y.staysOn b = x.staysOn b := by
  have nothing : tasks.flatMap (·.staysOn b) = [] := by
    rw [List.flatMap_eq_nil_iff]
    intro t member
    rw [List.eq_nil_iff_forall_not_mem]
    intro s holds
    rw [Task.mem_staysOn_iff, none t member] at holds
    cases holds
  rw [staysOn, tasks', List.flatMap_append, nothing, List.append_nil]
  rfl

/-- What is asked for may add tasks and buses, and have something else done next. -/
theorem Sound.grows (sound : x.Sound u) (idle : x.stack = []) {tasks : List Task}
    {buses : List SharedBus} (tasks' : y.tasks = x.tasks ++ tasks)
    (buses' : y.buses = x.buses ++ buses)
    (newTasks : ∀ t ∈ tasks, t.Sound u x.buses.length ∧ t.life = .idle ∧ t.stays = [])
    (newBuses : ∀ b ∈ buses, b = .empty) (asides : ∀ f ∈ y.stack, f.IsAside) :
    y.Sound u ∧ Goes u resumed x y := by
  have registry := registry_of_append buses' newBuses
  have stays := staysOn_of_append tasks' fun t member => (newTasks t member).2.2
  have le : x.buses.length ≤ y.buses.length := by
    rw [buses', List.length_append]
    exact Nat.le_add_right _ _
  refine ⟨⟨fun b inUse => ?_, .inl ?_, fun t member => ?_, fun t task there ended => .inl ?_,
    fun b => ?_, fun b => ?_⟩, goes_of_same registry fun b => stays b ▸ .refl _⟩
  · rw [isInUse_of_append buses' newBuses, sound.calm_of_idle idle] at inUse
    cases inUse
  · have stacked : Stacked y.buses.length y.tasks (y.stack ++ []) := .asides asides .nil
    rwa [List.append_nil] at stacked
  · rw [tasks', List.mem_append] at member
    rcases member with old | new
    · exact (sound.tasks t old).mono le
    · exact (newTasks t new).1.mono le
  · rw [tasks', List.getElem?_append] at there
    split at there
    · by_contra holds
      exact sound.not_ended_of_places idle there holds ended
    · have life := (newTasks task (List.mem_of_getElem? there)).2.1
      cases life.symm.trans ended
  · rw [registry, stays]
    exact sound.balanced b
  · rw [stays]
    exact sound.permitted b

/-- An operation that is asked for from outside. -/
theorem Sound.asksOperation (sound : x.Sound u) (idle : x.stack = []) {b : Nat}
    (inside : b < x.buses.length) (op : Operation) :
    (x.act b .outside (.operate op)).Sound u ∧
      Goes u resumed x (x.act b .outside (.operate op)) := by
  obtain ⟨bus, there, free, registry⟩ := exists_bus inside (sound.calm_of_idle idle b)
  obtain ⟨o, ran, handles⟩ := op.apply_handles bus.registry
  let next (reply : Reply) (x : Executor) := (x.record reply).push [.complete .outside reply]
  have does : Does (next o.answer) 0 id [.complete .outside o.answer] :=
    fun x => ⟨rfl, (List.modify_id 0 x.tasks).symm, rfl⟩
  obtain ⟨buses, tasks, stack⟩ := access_of_free next there free ran does
  have accessed : x.act b .outside (.operate op) = x.access b op.apply next := by rw [act]
  rw [List.modify_id] at tasks
  rw [registry] at handles
  rw [accessed]
  have goes : Goes u resumed x (x.access b op.apply next) := by
    intro b'
    have stays : (x.access b op.apply next).staysOn b' = x.staysOn b' := by
      rw [staysOn, tasks]
      rfl
    rw [stays]
    refine ⟨_, _, .refl _, ?_, .refl _⟩
    by_cases same : b' = b
    · subst same
      rw [registry_set_self inside buses]
      exact .handled handles
    · rw [registry_set_ne same buses]
      exact .rest _ _
  refine ⟨⟨fun b' inUse => ?_, .inl ?_, ?_, fun t task found ended => .inl ?_, goes.balanced sound,
    goes.permitted sound⟩, goes⟩
  · by_cases same : b' = b
    · rw [stack, same]
      rfl
    · rw [isInUse_set_ne same buses, sound.calm_of_idle idle b'] at inUse
      cases inUse
  · rw [stack, idle]
    exact .aside rfl (.aside rfl (.aside rfl (.aside rfl .nil)))
  · rw [buses, List.length_set, tasks]
    exact sound.tasks
  · rw [tasks] at found
    by_contra holds
    exact sound.not_ended_of_places idle found holds ended

/-- What is asked for puts frames on an empty stack, and changes neither a task nor a bus. -/
theorem Sound.asksNothing (sound : x.Sound u) (idle : x.stack = []) {frames : List Frame}
    (tasks : y.tasks = x.tasks) (buses : y.buses = x.buses) (stack : y.stack = frames ++ x.stack)
    (asides : ∀ f ∈ frames, f.IsAside) : y.Sound u ∧ Goes u resumed x y := by
  refine sound.grows idle (tasks.trans (List.append_nil _).symm)
    (buses.trans (List.append_nil _).symm) (List.forall_mem_nil _)
    (List.forall_mem_nil _) ?_
  rw [stack, idle, List.append_nil]
  exact asides

/-- A task that is dropped from outside. -/
theorem Sound.asksDrop (sound : x.Sound u) (idle : x.stack = []) (t : Nat)
    {andThen : Bool → List Frame} (asides : ∀ dropped, ∀ f ∈ andThen dropped, f.IsAside) :
    (x.dropTask t andThen).Sound u ∧ Goes u resumed x (x.dropTask t andThen) := by
  have passed : (x.push (andThen false)).Sound u ∧ Goes u resumed x (x.push (andThen false)) :=
    sound.asksNothing idle rfl rfl rfl (asides false)
  rw [dropTask]
  cases found : x.tasks[t]? with
  | none => exact passed
  | some task =>
    cases life : task.isIdle
    · simp only [life, Bool.false_eq_true, ite_false]
      exact passed
    · simp only [life, ite_true]
      have kept := sound.tasks task (List.mem_of_getElem? found)
      refine sound.change (y := (x.modifyTask t ({ · with life := .ended })).push _)
        (sound.calm_of_idle idle) found (modify_of_getElem? found _) (.alone rfl fun b => rfl)
        ⟨kept.program, kept.progress, kept.stream⟩ (fun _ => .inr List.mem_cons_self)
        (fun t' _ vacate => ?_) (.inl (.aside rfl ?_))
      · rw [idle] at vacate
        cases vacate
      · have none : (x.modifyTask t ({ · with life := .ended })).stack = [] := idle
        rw [none]
        exact .asides (asides true) .nil

theorem Sound.asksAction (sound : x.Sound u) (idle : x.stack = []) {b : Nat}
    (inside : b < x.buses.length) (action : Action) :
    (x.act b .outside action).Sound u ∧ Goes u resumed x (x.act b .outside action) := by
  have aside (reply : Reply) : ∀ f ∈ [Frame.complete .outside reply], f.IsAside :=
    List.forall_mem_singleton.2 rfl
  cases action with
  | operate op => exact sound.asksOperation idle inside op
  | drop t => exact sound.asksDrop idle t fun dropped => aside (.plain (.flag dropped))
  | _ => exact sound.asksNothing idle rfl rfl rfl (aside _)

theorem Sound.ask (sound : x.Sound u) (idle : x.stack = []) {s : Step}
    (lawful : s.Lawful u x.buses.length) : (x.ask s).Sound u ∧ Goes u resumed x (x.ask s) := by
  have nothing {y : Executor} (tasks : y.tasks = x.tasks) (buses : y.buses = x.buses)
      (stack : y.stack = [] ++ x.stack) : y.Sound u ∧ Goes u resumed x y :=
    sound.asksNothing idle tasks buses stack (List.forall_mem_nil _)
  have none {f : Frame} (member : f ∈ x.stack) : f.IsAside := by
    rw [idle] at member
    cases member
  cases s with
  | act b action => exact sound.asksAction idle lawful action
  | addBus =>
    refine sound.grows idle (List.append_nil _).symm rfl (List.forall_mem_nil _)
      (fun b member => List.mem_singleton.1 member) fun f => none
  | spawn program stopsOnError =>
    refine sound.grows idle rfl (List.append_nil _).symm (fun t member => ?_)
      (List.forall_mem_nil _) fun f => none
    rw [List.mem_singleton.1 member]
    exact ⟨Task.sound_new lawful stopsOnError, rfl, rfl⟩
  | run limit => exact sound.asksNothing idle rfl rfl rfl (List.forall_mem_singleton.2 rfl)
  | poll w =>
    rw [Executor.ask]
    split
    · exact sound.asksNothing idle rfl rfl rfl
        (List.forall_mem_cons.2 ⟨rfl, List.forall_mem_singleton.2 rfl⟩)
    · exact nothing rfl rfl rfl
  | dropInUse _ _ => exact lawful.elim
  | report => exact nothing rfl rfl rfl

/-- A request comes with a new log, and nothing that matters for waiting is changed by that. -/
theorem Sound.cleared (sound : x.Sound u) :
    ({ x with log := [], answer := none } : Executor).Sound u :=
  ⟨sound.free, sound.stacked, sound.tasks, sound.vacated, sound.balanced, sound.permitted⟩

end Executor

end MessageBus
