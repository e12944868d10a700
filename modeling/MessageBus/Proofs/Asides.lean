import MessageBus.Proofs.Soundness

/-!
# Frames of nobody's turn

Some frames belong to no turn: an access is over, somebody is woken, something is told, a task is
polled, or a task that is over gives up its places. Most of them change neither a task nor a bus
(`Sound.quiet`). Each of them keeps an executor sound, and lets every bus make at most one move.
-/

namespace MessageBus

namespace Task

variable {u : Usage} {n b : Nat} {task : Task} {p : Place} {later : List (Nat × Place)}

theorem giveUpPlace_sound (sound : task.Sound u n) : task.giveUpPlace.Sound u n := by
  rw [giveUpPlace]
  split
  · exact ⟨sound.program, trivial, sound.stream⟩
  · exact ⟨sound.program, sound.progress, fun s member => by cases member⟩

theorem life_giveUpPlace (task : Task) : task.giveUpPlace.life = task.life := by
  rw [giveUpPlace]
  split <;> rfl

theorem giveUpPlace_suits {f : Frame} (suits : f.Suits n task) : f.Suits n task.giveUpPlace := by
  have call : task.callPlace = none → task.giveUpPlace.callPlace = none := by
    intro free
    rw [giveUpPlace, free]
    exact free
  refine suits.imp call fun none => ?_
  rw [places, List.append_eq_nil_iff] at none
  have free : task.callPlace = Option.none := Option.toList_eq_nil_iff.1 none.1
  rw [places, call free, giveUpPlace, free]
  rfl

/-- The place that is given up next is the first of them, and with it goes the stay for it. -/
theorem giveUpPlace_stays (sound : task.Sound u n) (first : task.places = (b, p) :: later) :
    b < n ∧ ∃ s : Stay, s.place = p ∧ task.staysOn b = s :: task.giveUpPlace.staysOn b ∧
      ∀ b', b' ≠ b → task.giveUpPlace.staysOn b' = task.staysOn b' := by
  have call := task.map_place_callStay
  have stream := task.map_place_streamStay
  rw [places] at first
  cases holds : task.callPlace with
  | some held =>
    rw [holds] at first call
    cases first
    obtain ⟨⟨b', s⟩, stay, same⟩ := Option.map_eq_some_iff.1 call
    cases same
    have given : task.giveUpPlace = { task with progress := .fresh } := by rw [giveUpPlace, holds]
    refine ⟨inside_of_callStay sound stay, s, rfl, ?_, fun b other => ?_⟩
    · rw [given, staysOn, stay, staysIn_self]
      rfl
    · rw [given, staysOn, staysOn, stay, staysIn_of_ne (Ne.symm other)]
      rfl
  | none =>
    rw [holds] at first
    cases holds' : task.streamPlace with
    | none =>
      rw [holds'] at first
      cases first
    | some held =>
      rw [holds'] at first stream
      cases first
      obtain ⟨⟨b', s⟩, stay, same⟩ := Option.map_eq_some_iff.1 stream
      cases same
      have given : task.giveUpPlace = { task with stream := none } := by rw [giveUpPlace, holds]
      have settled := callStay_eq_none holds
      refine ⟨inside_of_streamStay sound stay, s, rfl, ?_, fun b other => ?_⟩
      · rw [given, staysOn_of_callStay settled, stay, staysIn_self,
          staysOn_of_callStay (t := { task with stream := none }) settled]
        rfl
      · rw [given, staysOn_of_callStay settled, stay, staysIn_of_ne (Ne.symm other),
          staysOn_of_callStay (t := { task with stream := none }) settled]
        rfl

end Task

namespace Executor

variable {u : Usage} {resumed : Nat → Request → Place → Prop} {x y : Executor} {b t : Nat}
  {w : Waker} {task : Task} {f : Frame} {frames rest : List Frame}

theorem step_of_stack_cons (stack : x.stack = f :: rest) :
    x.step = { x with stack := rest }.perform f := by
  rw [step, stack]

/-- Below a frame that is of no turn, the stack is in order. -/
theorem Sound.below (sound : x.Sound u) (stack : x.stack = f :: rest) (aside : f.IsAside) :
    Stacked x.buses.length x.tasks rest := by
  have order := sound.stacked
  rw [stack] at order
  exact order.below aside

/-- A task that gives up its places next still does so below any other frame. -/
theorem vacate_mem_rest (stack : x.stack = f :: rest) (other : .vacate t ≠ f)
    (vacate : .vacate t ∈ x.stack) : .vacate t ∈ rest := by
  rw [stack] at vacate
  exact List.mem_of_ne_of_mem other vacate

/-- A step that leaves every task and every registry as it is. -/
theorem Sound.passes (sound : x.Sound u) (tasks : y.tasks = x.tasks)
    (length : y.buses.length = x.buses.length) (registry : ∀ b, y.registry b = x.registry b)
    (free : ∀ b, y.isInUse b = false) (vacated : ∀ t task, x.tasks[t]? = some task →
      task.places = [] ∨ (.vacate t ∈ x.stack → .vacate t ∈ y.stack))
    (stacked : Stacked x.buses.length x.tasks y.stack) :
    y.Sound u ∧ Goes u resumed x y := by
  have stays (b : Nat) : y.staysOn b = x.staysOn b := by
    rw [staysOn, tasks]
    rfl
  refine ⟨⟨fun b inUse => ?_, .inl ?_, ?_, fun t task found ended => ?_, fun b => ?_, fun b => ?_⟩,
    goes_of_same registry fun b => stays b ▸ .refl _⟩
  · cases (free b).symm.trans inUse
  · rwa [length, tasks]
  · rw [length, tasks]
    exact sound.tasks
  · rw [tasks] at found
    rcases vacated t task found with none | kept
    · exact .inl none
    · exact (sound.vacated t task found ended).imp id kept
  · rw [registry, stays]
    exact sound.balanced b
  · rw [stays]
    exact sound.permitted b

/-- What is done to no task and no bus. -/
theorem Sound.quiet (sound : x.Sound u) (stack : x.stack = f :: rest) (plain : f.IsPlain)
    (tasks : y.tasks = x.tasks) (buses : y.buses = x.buses) (stack' : y.stack = frames ++ rest)
    (asides : ∀ g ∈ frames, g.IsAside) : y.Sound u ∧ Goes u resumed x y := by
  refine sound.passes tasks (congrArg _ buses) (registry_of_buses buses) (fun b => ?_)
    (fun t task _ => .inr fun vacate => ?_) ?_
  · rw [isInUse, buses]
    exact sound.calm stack (fun _ => plain.ne_release) b
  · rw [stack']
    exact List.mem_append_right _ (vacate_mem_rest stack plain.ne_vacate.symm vacate)
  · rw [stack']
    exact .asides asides (sound.below stack plain.isAside)

/-- What does nothing but take a frame off. -/
theorem Sound.taken (sound : x.Sound u) (stack : x.stack = f :: rest) (plain : f.IsPlain) :
    ({ x with stack := rest } : Executor).Sound u ∧ Goes u resumed x { x with stack := rest } :=
  sound.quiet stack plain rfl rfl (List.nil_append rest).symm (List.forall_mem_nil _)

theorem Sound.releases (sound : x.Sound u) (stack : x.stack = .release b :: rest) :
    x.step.Sound u ∧ Goes u resumed x x.step := by
  have only (b' : Nat) (other : b ≠ b') : x.isInUse b' = false := by
    cases inUse : x.isInUse b'
    · rfl
    · have top := sound.free b' inUse
      rw [stack] at top
      cases top
      exact absurd rfl other
  have found (b' : Nat) : (x.buses.modify b ({ · with inUse := false }))[b']? =
      (x.buses[b']?).map fun bus => if b = b' then { bus with inUse := false } else bus := by
    rw [List.getElem?_modify]
    split <;> rfl
  rw [step_of_stack_cons stack]
  refine sound.passes rfl (List.length_modify _ _ _) (fun b' => ?_) (fun b' => ?_)
    (fun t task _ => .inr fun vacate => ?_) (sound.below stack rfl)
  · rw [registry, registry, perform, found b']
    cases x.buses[b']? with
    | none => rfl
    | some bus =>
      by_cases same : b = b'
      · simp [same]
      · simp [same]
  · by_cases same : b = b'
    · rw [isInUse, perform, found b']
      cases x.buses[b']? with
      | none => rfl
      | some bus => simp [same]
    · have before := only b' same
      rw [isInUse] at before
      rw [isInUse, perform, found b']
      simpa [same] using before
  · exact vacate_mem_rest stack (by simp) vacate

theorem rouse_same (x : Executor) (w : Waker) : (x.rouse w).tasks = x.tasks ∧
    (x.rouse w).buses = x.buses ∧
    ∃ frames, (x.rouse w).stack = frames ++ x.stack ∧ ∀ g ∈ frames, g.IsAside := by
  have none : ∃ frames, x.stack = frames ++ x.stack ∧ ∀ g ∈ frames, g.IsAside :=
    ⟨[], rfl, List.forall_mem_nil _⟩
  rw [rouse]
  split
  · exact ⟨rfl, rfl, none⟩
  · split
    · split
      · exact ⟨rfl, rfl, [.poll ⟨w.task, 0⟩], rfl, List.forall_mem_singleton.2 rfl⟩
      · split <;> exact ⟨rfl, rfl, none⟩
    · exact ⟨rfl, rfl, none⟩

theorem Sound.wakes {wakers : List Waker} (sound : x.Sound u)
    (stack : x.stack = .wake wakers :: rest) :
    x.step.Sound u ∧ Goes u resumed x x.step := by
  rw [step_of_stack_cons stack]
  cases wakers with
  | nil => exact sound.taken stack rfl
  | cons w later =>
    obtain ⟨tasks, buses, frames, stack', asides⟩ :=
      rouse_same ((({ x with stack := rest } : Executor).push [.wake later]).happen (.woken w)) w
    refine sound.quiet stack rfl tasks buses
      (stack'.trans (List.append_assoc frames [.wake later] rest).symm) ?_
    rw [List.forall_mem_append]
    exact ⟨asides, List.forall_mem_singleton.2 rfl⟩

theorem Sound.tells {notes : List Note} (sound : x.Sound u)
    (stack : x.stack = .tell notes :: rest) :
    x.step.Sound u ∧ Goes u resumed x x.step := by
  rw [step_of_stack_cons stack]
  obtain ⟨buses, tasks, stack'⟩ := ({ x with stack := rest } : Executor).tell_same notes
  exact sound.quiet stack rfl tasks buses (stack'.trans (List.nil_append rest).symm)
    (List.forall_mem_nil _)

/-- A task that is idle begins a turn. -/
theorem Sound.polls (sound : x.Sound u) (stack : x.stack = .poll w :: rest) :
    x.step.Sound u ∧ Goes u resumed x x.step := by
  have below := sound.below stack rfl
  rw [step_of_stack_cons stack, perform]
  refine withTask_cases (motive := fun y => y.Sound u ∧ Goes u resumed x y)
    (fun _ => sound.taken stack rfl) fun task found => ?_
  cases idle : task.isIdle
  · exact sound.taken stack rfl
  · rw [if_pos rfl]
    have idle : task.life = .idle := by simpa [Task.isIdle] using idle
    have kept := sound.tasks task (List.mem_of_getElem? found)
    have once : .leave w.task ∉ rest := by
      intro begun
      obtain ⟨task', found', running⟩ := below.running begun
      cases found.symm.trans found'
      cases idle.symm.trans running
    have tasks : x.tasks.modify w.task ({ · with life := .running }) =
        x.tasks.set w.task { task with life := .running } := modify_of_getElem? found _
    obtain ⟨inside, -⟩ := List.getElem?_eq_some_iff.1 found
    refine sound.change (sound.calm stack (by simp)) found tasks (.alone rfl fun b => rfl)
      ⟨kept.program, kept.progress, kept.stream⟩ (fun ended => by cases ended)
      (fun t' _ vacate => ?_) (.inl ?_)
    · have later := vacate_mem_rest stack (by simp) vacate
      exact List.mem_cons_of_mem _ (List.mem_cons_of_mem _ later)
    · have below' : Stacked x.buses.length
          (x.tasks.set w.task { task with life := .running }) rest :=
        below.set found fun begun => absurd begun once
      have begun : Stacked x.buses.length (x.tasks.set w.task { task with life := .running })
          (.proceed w :: .leave w.task :: rest) :=
        .turn rfl (List.getElem?_set_self inside) rfl trivial once below'
      rw [← tasks] at begun
      exact begun

/-- A task that is over gives up the first of its places. -/
theorem Sound.vacatesFirst (sound : x.Sound u) (stack : x.stack = .vacate t :: rest)
    (found : x.tasks[t]? = some task) {p : Place} {later : List (Nat × Place)}
    (places : task.places = (b, p) :: later) :
    (({ x with stack := rest } : Executor).vacate t task).Sound u ∧
      Goes u resumed x (({ x with stack := rest } : Executor).vacate t task) := by
  have calm := sound.calm stack (by simp)
  have kept := sound.tasks task (List.mem_of_getElem? found)
  obtain ⟨inside, s, place, own, other⟩ := Task.giveUpPlace_stays kept places
  obtain ⟨bus, there, free, registry⟩ := exists_bus inside (calm b)
  let entered : Executor := ({ x with stack := rest } : Executor).push [.vacate t]
  let forget (_ : Unit) (x : Executor) := x.modifyTask t (·.giveUpPlace)
  have does : Does (forget ()) t (·.giveUpPlace) [] := fun x => ⟨rfl, rfl, rfl⟩
  let give (r : Registry Waker) : Except Fault (Outcome (Registry Waker) Waker Unit) :=
    .ok (r.abandon p)
  have ran : give bus.registry = .ok ((x.registry b).abandon p) := by rw [registry]
  obtain ⟨buses, tasks, stack'⟩ := access_of_free (x := entered) forget there free ran does
  have free' : entered.isInUse b = false := calm b
  replace tasks : (entered.access b give forget).tasks = x.tasks.set t task.giveUpPlace :=
    tasks.trans (modify_of_getElem? found _)
  simp only [vacate, places, giveUp, entered, free', Bool.false_eq_true, ite_false]
  refine sound.change calm found tasks
    (.enters inside buses (by rw [stack']; rfl) (fun held => ?_) other)
    (Task.giveUpPlace_sound kept) (fun _ => .inr ?_) (fun t' apart vacate => ?_) (.inl ?_)
  · rw [own]
    exact place ▸ .abandoned
  · rw [stack']
    exact List.mem_cons_of_mem _ (List.mem_cons_of_mem _ (List.mem_cons_of_mem _
      List.mem_cons_self))
  · have member := vacate_mem_rest stack (by simpa using apart) vacate
    rw [stack']
    exact List.mem_append_right [_, _, _, _] member
  · have after : Stacked x.buses.length (x.tasks.set t task.giveUpPlace) rest :=
      (sound.below stack rfl).set found fun _ =>
        ⟨Task.life_giveUpPlace task, fun f => Task.giveUpPlace_suits⟩
    rw [stack', buses, List.length_set, tasks]
    exact .aside rfl (.aside rfl (.aside rfl (.aside rfl after)))

/-- A task that is over gives up its places, one after the other. -/
theorem Sound.vacates (sound : x.Sound u) (stack : x.stack = .vacate t :: rest) :
    x.step.Sound u ∧ Goes u resumed x x.step := by
  have below := sound.below stack rfl
  have calm := sound.calm stack (by simp)
  rw [step_of_stack_cons stack, perform]
  refine withTask_cases (motive := fun y => y.Sound u ∧ Goes u resumed x y)
    (fun missing => ?_) fun task found => ?_
  · refine sound.passes rfl rfl (fun _ => rfl) calm (fun t' task found' => .inr ?_) below
    refine vacate_mem_rest stack fun same => ?_
    cases same
    cases missing.symm.trans found'
  · cases places : task.places with
    | nil =>
      rw [vacate, places]
      refine sound.passes rfl rfl (fun _ => rfl) calm (fun t' task' found' => ?_) below
      by_cases same : t' = t
      · subst same
        cases found.symm.trans found'
        exact .inl places
      · exact .inr (vacate_mem_rest stack (by simpa using same))
    | cons first later => exact sound.vacatesFirst stack found places

theorem observe_cases (x : Executor) (t : Nat) (task : Task) : x.observe t task = x ∨
    ∃ bus p before after after', task.progress = .waiting bus p before after ∧
      x.observe t task = x.keep t (.waiting bus p before after') := by
  rw [observe]
  split
  · rename_i bus p before after progress
    exact .inr ⟨bus, p, before, after, _, progress, rfl⟩
  · exact .inl rfl

/-- A bare wait that describes itself keeps its place. -/
theorem Sound.observes (sound : x.Sound u) (stack : x.stack = .observe t :: rest) :
    x.step.Sound u ∧ Goes u resumed x x.step := by
  rw [step_of_stack_cons stack, perform]
  refine withTask_cases (motive := fun y => y.Sound u ∧ Goes u resumed x y)
    (fun _ => sound.taken stack rfl) fun task found => ?_
  have kept := sound.tasks task (List.mem_of_getElem? found)
  rcases observe_cases { x with stack := rest } t task with
    unchanged | ⟨bus, p, before, after, after', progress, changed⟩
  · rw [unchanged]
    exact sound.taken stack rfl
  · have inside : bus < x.buses.length := by
      have sound := kept.progress
      rw [progress] at sound
      exact sound
    let task' : Task := { task with progress := .waiting bus p before after' }
    have call : task'.callStay = task.callStay := by rw [Task.callStay, Task.callStay, progress]
    have place : task'.callPlace = task.callPlace := by
      rw [Task.callPlace, Task.callPlace, progress]
    have places : task'.places = task.places := by
      rw [Task.places, place]
      rfl
    have below : Stacked x.buses.length (x.tasks.set t task') rest :=
      (sound.below stack rfl).set found fun _ =>
        ⟨rfl, fun f suits => suits.imp place.trans places.trans⟩
    rw [← modify_of_getElem? found ({ · with progress := .waiting bus p before after' })] at below
    rw [changed]
    refine sound.change (sound.calm stack (by simp)) found (modify_of_getElem? found _)
      (.alone rfl fun b => ?_) ⟨kept.program, inside, kept.stream⟩ (fun ended => ?_)
      (fun t' _ vacate => vacate_mem_rest stack (by simp) vacate) (.inl below)
    · exact congrArg (staysIn b · ++ _) call
    · exact (sound.vacated t task found ended).imp places.trans (vacate_mem_rest stack (by simp))

/-- The end of a turn is reached only after the turn has ended. -/
theorem Sound.leaves (sound : x.Sound u) (stack : x.stack = .leave t :: rest) :
    x.step.Sound u ∧ Goes u resumed x x.step := by
  have order := sound.stacked
  rw [stack] at order
  rcases order with stacked | ⟨t', task, rest', same, found, stopped, below⟩
  · cases stacked with
    | aside aside _ => exact aside.elim
    | turn own _ _ _ _ _ => cases own
  · cases same
    rw [step_of_stack_cons stack, perform, withTask_of_found (x := { x with stack := rest }) found,
      if_neg stopped]
    exact sound.passes rfl rfl (fun _ => rfl) (sound.calm stack (by simp))
      (fun _ _ _ => .inr (vacate_mem_rest stack (by simp))) below

theorem drain_same (x : Executor) (limit : Option Nat) (polled : Nat) :
    (x.drain limit polled).tasks = x.tasks ∧ (x.drain limit polled).buses = x.buses ∧
      ∃ frames, (x.drain limit polled).stack = frames ++ x.stack ∧ ∀ g ∈ frames, g.IsAside := by
  have none : ∃ frames, x.stack = frames ++ x.stack ∧ ∀ g ∈ frames, g.IsAside :=
    ⟨[], rfl, List.forall_mem_nil _⟩
  unfold drain
  split
  · exact ⟨rfl, rfl, none⟩
  · exact ⟨rfl, rfl, none⟩
  · rename_i t later _ _
    dsimp only
    split
    · exact ⟨rfl, rfl, [.poll ⟨t, 0⟩, .drain _ _], rfl,
        List.forall_mem_cons.2 ⟨rfl, List.forall_mem_singleton.2 rfl⟩⟩
    · exact ⟨rfl, rfl, [.drain _ polled], rfl, List.forall_mem_singleton.2 rfl⟩

theorem Sound.drains {limit : Option Nat} {polled : Nat} (sound : x.Sound u)
    (stack : x.stack = .drain limit polled :: rest) :
    x.step.Sound u ∧ Goes u resumed x x.step := by
  obtain ⟨tasks, buses, frames, stack', asides⟩ :=
    drain_same { x with stack := rest } limit polled
  rw [step_of_stack_cons stack]
  exact sound.quiet stack rfl tasks buses stack' asides

theorem Sound.judges (sound : x.Sound u) (stack : x.stack = .verdict t :: rest) :
    x.step.Sound u ∧ Goes u resumed x x.step := by
  rw [step_of_stack_cons stack, perform]
  refine withTask_cases (motive := fun y => y.Sound u ∧ Goes u resumed x y)
    (fun _ => sound.taken stack rfl) fun task found => ?_
  exact sound.quiet stack rfl rfl rfl (List.nil_append rest).symm (List.forall_mem_nil _)

end Executor

end MessageBus
