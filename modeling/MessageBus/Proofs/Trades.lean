import MessageBus.Proofs.AnyRun
import MessageBus.Proofs.WaitEntries.Errands

/-!
# What becomes of the places in a step

In a sound executor no errand fails (`Sound.carried`), and a place changes hands in one way only:
the task that is on the errand gives up the place from which it came, if there is one, and holds
those that the errand comes to. All its other places, and those of all other tasks, stay as they are
(`Executor.Trades`).
-/

namespace MessageBus

/-! ### No errand fails -/

namespace Errand

variable {ω : Type} {r : Registry ω} {held : List Stay}

/-- The place from which an errand comes. It is held no more after that, unless the errand comes to
it again. -/
def prior? : Errand ω → Option Place
  | look _ prior _ => prior
  | revisit p _ => some p
  | abandon p => some p
  | _ => none

/-- An errand commits no fault where lines and stays are in balance. -/
theorem exists_effect (bal : r.Balanced held) (e : Errand ω) : ∃ o, e.effect r = .ok o := by
  cases e with
  | operate op =>
    obtain ⟨o, ran, -⟩ := op.apply_handles r
    exact ⟨_, by rw [effect, ran]; rfl⟩
  | look q prior k =>
    obtain ⟨o, ran, -⟩ := Request.look_looked bal q prior k
    exact ⟨_, by rw [effect, ran]; rfl⟩
  | park a side k =>
    cases found : r.find? a with
    | none => exact ⟨_, by rw [effect, Registry.park_of_gone found]; rfl⟩
    | some c =>
      obtain ⟨o, ran, -⟩ := Registry.park_of_find? bal found side k
      exact ⟨_, by rw [effect, ran]; rfl⟩
  | revisit p k => exact ⟨_, rfl⟩
  | abandon p => exact ⟨_, rfl⟩
  | glance => exact ⟨_, rfl⟩

end Errand

namespace Task

variable {u : Usage} {n b : Nat} {task : Task} {p : Place}

/-- Whoever holds a place is on a bus that is there. -/
theorem inside_of_places (sound : task.Sound u n) (holds : (b, p) ∈ task.places) : b < n := by
  rw [← map_place_stays, List.mem_map] at holds
  obtain ⟨⟨b', s⟩, member, same⟩ := holds
  cases same
  rcases List.mem_append.1 member with call | stream
  · exact inside_of_callStay sound (Option.mem_toList.1 call)
  · exact inside_of_streamStay sound (Option.mem_toList.1 stream)

theorem places_of_settled (settled : task.callPlace = none) :
    task.places = task.streamPlace.toList := by
  rw [places, settled]
  rfl

theorem callPlace_of_fresh (fresh : task.progress = .fresh) : task.callPlace = none := by
  rw [callPlace, fresh]

theorem callPlace_of_atStream (atStream : task.IsAtStream) : task.callPlace = none := by
  rcases atStream with ⟨fresh, -⟩ | ⟨items, collecting⟩
  · exact callPlace_of_fresh fresh
  · rw [callPlace, collecting]

/-- A task that is over gives up the first of its places. -/
theorem places_giveUpPlace {held : Nat × Place} {later : List (Nat × Place)}
    (places : task.places = held :: later) : task.giveUpPlace.places = later := by
  rw [Task.places] at places
  rw [giveUpPlace]
  cases call : task.callPlace with
  | none =>
    rw [call] at places
    cases stream : task.streamPlace with
    | none =>
      rw [stream] at places
      cases places
    | some held =>
      rw [stream] at places
      cases places
      have settled : ({ task with stream := none } : Task).callPlace = none := call
      exact places_of_settled settled
  | some held =>
    rw [call] at places
    cases places
    rfl

theorem inside_of_streamErrand? {e : Errand Waker} (sound : task.Sound u n)
    (errand : task.streamErrand? = some (b, e)) : b < n := by
  obtain ⟨⟨b', p⟩, holds, same⟩ := Option.map_eq_some_iff.1 errand
  cases same
  refine inside_of_places (p := p) sound ?_
  rw [places, holds]
  exact List.mem_append_right _ List.mem_cons_self

theorem inside_of_placeErrand? {e : Errand Waker} (sound : task.Sound u n)
    (errand : task.placeErrand? = some (b, e)) : b < n := by
  obtain ⟨⟨b', p⟩, first, same⟩ := Option.map_eq_some_iff.1 errand
  cases same
  exact inside_of_places (p := p) sound (List.mem_of_head? first)

theorem inside_of_stream {e : Errand Waker} {w : Waker} (sound : task.Sound u n)
    (errand : task.stream.bind (·.errand? w) = some (b, e)) : b < n := by
  obtain ⟨s, stream, looks⟩ := Option.bind_eq_some_iff.1 errand
  obtain ⟨id, -, same⟩ := Option.map_eq_some_iff.1 looks
  cases same
  exact sound.stream s stream

end Task

namespace Executor

variable {u : Usage} {x y : Executor} {w : Waker} {t b : Nat} {task : Task} {f : Frame}
  {e : Errand Waker} {p : Place} {change : Task → Task} {frames rest : List Frame}

theorem inside_of_startErrand? {i : Instruction} (sound : task.Sound u x.buses.length)
    (current : task.current? = some i) (errand : x.startErrand? w task i = some (b, e)) :
    b < x.buses.length := by
  have inside : i.bus < x.buses.length :=
    (sound.program i (List.mem_of_getElem? current)).1
  obtain ⟨bus, deed⟩ := i
  cases deed with
  | act action =>
    cases action with
    | operate op =>
      cases errand
      exact inside
    | _ => cases errand
  | call c =>
    simp only [startErrand?] at errand
    split at errand <;> cases errand <;> exact inside
  | stream h =>
    cases errand
    exact inside
  | resolve h =>
    cases errand
    exact inside
  | next => exact Task.inside_of_stream sound errand
  | tryNext => exact Task.inside_of_stream sound errand
  | collect => exact Task.inside_of_stream sound errand
  | dropStream => exact Task.inside_of_streamErrand? sound errand
  | recvFrom h =>
    obtain ⟨id, -, same⟩ := Option.map_eq_some_iff.1 errand
    cases same
    exact inside
  | wait h side =>
    obtain ⟨id, -, same⟩ := Option.map_eq_some_iff.1 errand
    cases same
    exact inside
  | yield => cases errand
  | hasEnded => cases errand
  | describeStream => cases errand

theorem inside_of_taskErrand? (sound : task.Sound u x.buses.length)
    (errand : x.taskErrand? w task = some (b, e)) : b < x.buses.length := by
  have progress := sound.progress
  rw [taskErrand?] at errand
  cases now : task.progress with
  | fresh =>
    simp only [now] at errand
    cases current : task.current? with
    | none =>
      rw [current] at errand
      exact Task.inside_of_streamErrand? sound errand
    | some i =>
      rw [current] at errand
      exact inside_of_startErrand? sound current errand
  | calling bus q prior recorded =>
    rw [now] at errand progress
    cases errand
    exact progress.1
  | yielded =>
    rw [now] at errand
    cases errand
  | collecting items =>
    rw [now] at errand
    exact Task.inside_of_stream sound errand
  | waiting bus p before after =>
    rw [now] at errand progress
    cases errand
    exact progress

/-- In a sound executor every errand on a free bus is carried out. -/
theorem Sound.carried_of_free (sound : x.Sound u) (inside : b < x.buses.length)
    (free : x.isInUse b = false) (e : Errand Waker) : x.carried b e ≠ none := by
  obtain ⟨bus, there, free', registry⟩ := exists_bus inside free
  obtain ⟨o, ran⟩ := e.exists_effect (sound.balanced b)
  simp [Executor.carried, there, free', registry, ran, Except.toOption]

theorem Sound.carried (sound : x.Sound u) (errand : x.errand? = some (b, e)) :
    x.carried b e ≠ none := by
  have task_sound {t : Nat} {task : Task} (found : x.tasks[t]? = some task) :
      task.Sound u x.buses.length := sound.tasks task (List.mem_of_getElem? found)
  rw [errand?] at errand
  split at errand
  · rename_i w rest stack
    obtain ⟨task, found, errand⟩ := Option.bind_eq_some_iff.1 errand
    exact sound.carried_of_free (inside_of_taskErrand? (task_sound found) errand)
      (sound.calm stack (fun _ => Frame.noConfusion) b) e
  · rename_i w s rest stack
    obtain ⟨task, found, errand⟩ := Option.bind_eq_some_iff.1 errand
    exact sound.carried_of_free (Task.inside_of_streamErrand? (task_sound found) errand)
      (sound.calm stack (fun _ => Frame.noConfusion) b) e
  · rename_i t rest stack
    obtain ⟨task, found, errand⟩ := Option.bind_eq_some_iff.1 errand
    exact sound.carried_of_free (Task.inside_of_placeErrand? (task_sound found) errand)
      (sound.calm stack (fun _ => Frame.noConfusion) b) e
  · cases errand

/-- A step that is on an errand enters the bus and goes on from what the errand comes to. -/
theorem Sound.enters (sound : x.Sound u) (stack : x.stack = f :: rest)
    (errand : x.errand? = some (b, e)) : ∃ o t change frames, x.carried b e = some o ∧
      x.Sequel f b e o t change frames ∧
      x.Leads x.step (x.buses.set b ⟨o.state, true⟩) (x.tasks.modify t change)
        (.release b :: .wake o.woken :: .tell o.afterwards :: (frames ++ rest)) := by
  cases x.step_unfolds stack with
  | enters errand' carried sequel leads =>
    cases errand.symm.trans errand'
    exact ⟨_, _, _, _, carried, sequel, leads⟩
  | fails errand' failed _ _ _ _ =>
    cases errand.symm.trans errand'
    exact absurd failed (sound.carried errand)
  | _ none => cases errand.symm.trans none

/-! ### The places of one task -/

/-- A new stream takes the place of one that holds none. -/
theorem Replaces.streamPlace {stream : Option Stream} {next : Frame} (sound : x.Sound u)
    (stack : x.stack = f :: rest) (replaces : x.Replaces f t stream next) (task : Task) :
    ({ task with stream } : Task).streamPlace = none := by
  cases replaces with
  | ends _ _ _ => rfl
  | drops _ _ _ => rfl
  | @adopts w s =>
    obtain ⟨task', below, -, turn⟩ := sound.inTurn stack rfl
    have free : s.place = none := turn.suits.2.2
    rw [Task.streamPlace, Option.bind_some, free]
    rfl

/-- A reply comes after the place of the call was given up. -/
theorem Sound.settled_of_turn (sound : x.Sound u) (stack : x.stack = f :: rest)
    (own : f.turn? = some t) (found : x.tasks[t]? = some task)
    (suits : f.Suits x.buses.length task → task.callPlace = none) : task.callPlace = none := by
  obtain ⟨task', below, -, turn⟩ := sound.inTurn stack own
  cases found.symm.trans turn.found
  exact suits turn.suits

/-- Where no bus is entered, every task keeps its places. -/
theorem Quiet.places (sound : x.Sound u) (stack : x.stack = f :: rest)
    (quiet : x.Quiet f t change frames) (found : x.tasks[t]? = some task) :
    (change task).places = task.places := by
  cases quiet with
  | breaksOff found' running => exact absurd running (sound.life_of_leave stack found')
  | observes found' progress =>
    cases found.symm.trans found'
    rw [Task.places, Task.places, Task.callPlace, Task.callPlace, progress]
    rfl
  | completes found' =>
    rw [Task.places_of_settled (sound.settled_of_turn stack rfl found id)]
    rfl
  | collects found' _ =>
    rw [Task.places_of_settled (sound.settled_of_turn stack rfl found id)]
    rfl
  | yields found' fresh _ =>
    cases found.symm.trans found'
    rw [Task.places_of_settled (Task.callPlace_of_fresh fresh)]
    rfl
  | replaces replaces free =>
    have none : task.streamPlace = none := by
      rw [found] at free
      exact free
    rw [Task.places, Task.places, none, replaces.streamPlace sound stack task]
    rfl
  | _ => rfl

/-- The call of a task that looks at a request is at the place from which it comes. -/
theorem Pursues.callPlace {q : Request} {prior : Option Place} {recorded : Bool}
    (pursues : x.Pursues task b q prior recorded) : task.callPlace = prior.map (b, ·) := by
  cases pursues with
  | calling progress =>
    rw [Task.callPlace, progress]
    cases prior <;> rfl
  | call fresh _ _ => exact Task.callPlace_of_fresh fresh
  | recvFrom fresh _ _ => exact Task.callPlace_of_fresh fresh

/-- On an errand a task gives up the place from which it came, and holds those that it came to. -/
theorem Sequel.places {o : Outcome (Registry Waker) Waker Upshot} (sound : x.Sound u)
    (stack : x.stack = f :: rest) (ran : e.effect (x.registry b) = .ok o)
    (sequel : x.Sequel f b e o t change frames) (found : x.tasks[t]? = some task) :
    ∃ others, task.places.Perm (e.prior?.toList.map (b, ·) ++ others) ∧
      (change task).places.Perm (o.answer.places.map (b, ·) ++ others) := by
  have kept (none : e.prior? = none) (nothing : o.answer.places = [])
      (same : (change task).places = task.places) :
      ∃ others, task.places.Perm (e.prior?.toList.map (b, ·) ++ others) ∧
        (change task).places.Perm (o.answer.places.map (b, ·) ++ others) := by
    rw [none, nothing, same]
    exact ⟨task.places, .refl _, .refl _⟩
  cases sequel with
  | operates _ _ _ _ => exact kept rfl rfl rfl
  | @looks w _ _ q prior recorded p found' pursues looks =>
    cases found.symm.trans found'
    have holds : task.callPlace.toList = prior.toList.map (b, ·) := by
      rw [pursues.callPlace, Option.toList_map]
    refine ⟨task.streamPlace.toList, .of_eq (congrArg (· ++ _) holds), .of_eq ?_⟩
    rw [Outcome.answer_map]
    rcases p.answer with result | ⟨q', p'⟩ | _ | q'
    · rfl
    · rfl
    · have stays : ((q.stays prior).map (·.place)) = prior.toList := by
        cases prior <;> rfl
      show task.places = ((q.stays prior).map (·.place)).map (b, ·) ++ task.streamPlace.toList
      rw [stays, Task.places, holds]
    · rfl
  | @looksAtStream w _ s id p found' atStream stream known looks =>
    cases found.symm.trans found'
    have settled := Task.callPlace_of_atStream atStream
    have holds : task.places = s.place.toList.map (s.bus, ·) := by
      rw [Task.places_of_settled settled, Task.streamPlace, stream, Option.bind_some]
      cases s.place <;> rfl
    refine ⟨[], .of_eq ?_, .of_eq ?_⟩
    · rw [holds, List.append_nil]
      rfl
    · have ends := Request.ends_of_look looks
      have settled' (stream' : Option Stream) :
          ({ task with stream := stream' } : Task).callPlace = none := settled
      rw [Outcome.answer_map, List.append_nil]
      generalize p.answer = turn, p.state = r, p.woken = woken, place : s.place = prior at ends
      cases ends with
      | @tried _ _ result _ _ _ =>
        cases result <;> exact Task.places_of_settled (settled' _)
      | parked _ _ _ _ => exact Task.places_of_settled (settled' _)
      | waiting _ =>
        show task.places = _
        rw [holds, place]
        rfl
      | gone _ => exact Task.places_of_settled (settled' _)
  | fails found' fresh _ _ =>
    cases found.symm.trans found'
    cases ran
    refine kept rfl rfl ?_
    rw [Task.places_of_settled (Task.callPlace_of_fresh fresh)]
    rfl
  | resolvesStream _ _ _ =>
    cases ran
    exact kept rfl rfl rfl
  | resolves _ _ _ remembers =>
    cases ran
    obtain ⟨remembered, same⟩ := remembers task
    exact kept rfl rfl (by rw [same]; rfl)
  | parks found' fresh _ _ answer =>
    cases found.symm.trans found'
    refine ⟨task.streamPlace.toList, .of_eq ?_, .of_eq ?_⟩
    · rw [Task.places_of_settled (Task.callPlace_of_fresh fresh)]
      rfl
    · rw [Outcome.answer_map, answer]
      rfl
  | parksNowhere _ _ _ _ answer => exact kept rfl (by rw [Outcome.answer_map, answer]; rfl) rfl
  | @waits _ _ _ p _ _ found' progress queued =>
    cases found.symm.trans found'
    have holds : task.places = [(b, p)] ++ task.streamPlace.toList := by
      rw [Task.places, Task.callPlace, progress]
      rfl
    refine ⟨task.streamPlace.toList, .of_eq holds, .of_eq ?_⟩
    rw [Outcome.answer_map, queued]
    exact holds
  | wakes found' progress out =>
    cases found.symm.trans found'
    refine ⟨task.streamPlace.toList, .of_eq ?_, .of_eq ?_⟩
    · rw [Task.places, Task.callPlace, progress]
      rfl
    · rw [Outcome.answer_map, if_neg out]
      rfl
  | abandons forgets =>
    cases forgets with
    | stream replaces found' holds =>
      cases found.symm.trans found'
      refine ⟨task.callPlace.toList, ?_, .of_eq ?_⟩
      · rw [Task.places, holds]
        exact List.perm_append_comm
      · rw [Task.places, replaces.streamPlace sound stack task]
        exact List.append_nil _
    | @place _ _ _ _ later found' places =>
      cases found.symm.trans found'
      refine ⟨later, .of_eq places, .of_eq ?_⟩
      exact Task.places_giveUpPlace places

/-- A task that is on an errand is there, and it is its own waker that it leaves behind. -/
theorem Sequel.own {o : Outcome (Registry Waker) Waker Upshot}
    (sequel : x.Sequel f b e o t change frames) :
    (∃ task, x.tasks[t]? = some task) ∧ ∀ k, e.waker? = some k → k.task = t := by
  have leaves {w : Waker} (k : Waker) (own : some w = some k) : k.task = w.task :=
    congrArg Waker.task (Option.some.inj own).symm
  cases sequel with
  | operates found _ _ _ => exact ⟨⟨_, found⟩, nofun⟩
  | looks found _ _ => exact ⟨⟨_, found⟩, leaves⟩
  | looksAtStream found _ _ _ _ => exact ⟨⟨_, found⟩, leaves⟩
  | fails found _ _ _ => exact ⟨⟨_, found⟩, nofun⟩
  | resolvesStream found _ _ => exact ⟨⟨_, found⟩, nofun⟩
  | resolves found _ _ _ => exact ⟨⟨_, found⟩, nofun⟩
  | parks found _ _ _ _ => exact ⟨⟨_, found⟩, leaves⟩
  | parksNowhere found _ _ _ _ => exact ⟨⟨_, found⟩, leaves⟩
  | waits found _ _ => exact ⟨⟨_, found⟩, leaves⟩
  | wakes found _ _ => exact ⟨⟨_, found⟩, leaves⟩
  | abandons forgets =>
    refine ⟨?_, nofun⟩
    cases forgets with
    | stream _ found _ => exact ⟨_, found⟩
    | place found _ => exact ⟨_, found⟩

/-! ### The places of all tasks -/

/-- The places that a task holds; none if there is no such task. -/
def placesOf (x : Executor) (t : Nat) : List (Nat × Place) :=
  ((x.tasks[t]?).map (·.places)).getD []

theorem placesOf_of_found (found : x.tasks[t]? = some task) : x.placesOf t = task.places := by
  rw [placesOf, found]
  rfl

theorem placesOf_of_tasks (tasks : y.tasks = x.tasks) (t : Nat) : y.placesOf t = x.placesOf t := by
  rw [placesOf, tasks]
  rfl

theorem placesOf_of_modify (tasks : y.tasks = x.tasks.modify t change) {t' : Nat}
    (same : t = t' → ∀ task, x.tasks[t']? = some task → (change task).places = task.places) :
    y.placesOf t' = x.placesOf t' := by
  rw [placesOf, placesOf, tasks, List.getElem?_modify]
  cases found : x.tasks[t']? with
  | none => rfl
  | some task =>
    by_cases here : t = t'
    · simp [here, same here task found]
    · simp [here]

/-- What becomes of the places in a step. Either nothing becomes of them and no bus is entered, or a
task is on an errand: it gives up its prior place and holds those that the errand comes to, and the
wakers that it owes are to be called next. -/
inductive Trades (x y : Executor) : Option (Nat × Errand Waker) → Prop where
  | idle (registry : ∀ b, y.registry b = x.registry b) (places : ∀ t, y.placesOf t = x.placesOf t) :
    Trades x y none
  | errand {b : Nat} {e : Errand Waker} {o : Outcome (Registry Waker) Waker Upshot} {t : Nat}
      {others : List (Nat × Place)} (carried : x.carried b e = some o)
      (here : y.registry b = o.state) (elsewhere : ∀ b', b' ≠ b → y.registry b' = x.registry b')
      (before : (x.placesOf t).Perm (e.prior?.toList.map (b, ·) ++ others))
      (after : (y.placesOf t).Perm (o.answer.places.map (b, ·) ++ others))
      (beside : ∀ t', t' ≠ t → y.placesOf t' = x.placesOf t')
      (own : ∀ k, e.waker? = some k → k.task = t) (wakes : .wake o.woken ∈ y.stack) :
    Trades x y (some (b, e))

theorem Sound.trades_step (sound : x.Sound u) : x.Trades x.step x.errand? := by
  have idle {y : Executor} (none : x.errand? = none) (registry : ∀ b, y.registry b = x.registry b)
      (places : ∀ t, y.placesOf t = x.placesOf t) : x.Trades y x.errand? := by
    rw [none]
    exact .idle registry places
  cases stack : x.stack with
  | nil =>
    rw [step_of_stack_nil stack]
    exact idle (by rw [errand?, stack]) (fun _ => rfl) fun _ => rfl
  | cons f rest =>
    cases x.step_unfolds stack with
    | quiet none quiet leads =>
      refine idle none (registry_of_buses leads.buses) fun t' =>
        placesOf_of_modify leads.tasks fun same task found => ?_
      subst same
      exact quiet.places sound stack found
    | releases none leads =>
      exact idle none (registry_modify leads.buses fun _ => rfl) (placesOf_of_tasks leads.tasks)
    | polls none _ _ leads _ =>
      exact idle none (registry_of_buses leads.buses) (placesOf_of_tasks leads.tasks)
    | readies none leads _ _ _ =>
      exact idle none (registry_of_buses leads.buses) (placesOf_of_tasks leads.tasks)
    | drains none _ _ leads _ =>
      exact idle none (registry_of_buses leads.buses) (placesOf_of_tasks leads.tasks)
    | @enters _ b e o t change frames errand carried sequel leads =>
      obtain ⟨⟨task, found⟩, own⟩ := sequel.own
      obtain ⟨others, before, after⟩ := sequel.places sound stack (effect_of_carried carried) found
      have found' : x.step.tasks[t]? = some (change task) := by
        rw [leads.tasks, List.getElem?_modify_eq, found]
        rfl
      rw [errand]
      refine .errand carried (registry_set_self (inside_of_carried carried) leads.buses)
        (fun b' other => registry_set_ne other leads.buses) (placesOf_of_found found ▸ before)
        (placesOf_of_found found' ▸ after)
        (fun t' other => placesOf_of_modify leads.tasks fun same => absurd same.symm other) own ?_
      rw [leads.stack]
      exact List.mem_cons_of_mem _ List.mem_cons_self
    | fails errand failed _ _ _ _ => exact absurd failed (sound.carried errand)

theorem Sound.trades_ask (sound : x.Sound u) (idle : x.stack = []) {s : Step}
    (lawful : s.Lawful u x.buses.length) : x.Trades (x.ask s) s.errand? := by
  cases x.ask_asked s with
  | answers none _ leads =>
    rw [none]
    exact .idle (registry_of_buses leads.buses) (placesOf_of_tasks leads.tasks)
  | runs leads => exact .idle (registry_of_buses leads.buses) (placesOf_of_tasks leads.tasks)
  | polls _ _ leads => exact .idle (registry_of_buses leads.buses) (placesOf_of_tasks leads.tasks)
  | drops _ _ leads =>
    exact .idle (registry_of_buses leads.buses) fun t' =>
      placesOf_of_modify leads.tasks fun _ _ _ => rfl
  | dropsInUse _ _ _ => exact lawful.elim
  | adds leads =>
    exact .idle (registry_of_append leads.buses (List.forall_mem_singleton.2 rfl))
      (placesOf_of_tasks leads.tasks)
  | @spawns program stopsOnError leads _ =>
    refine .idle (registry_of_buses leads.buses) fun t' => ?_
    have tasks : (x.ask (.spawn program stopsOnError)).tasks = _ := leads.tasks
    rw [placesOf, placesOf, tasks, List.getElem?_append]
    split
    · rfl
    · rename_i outside
      rw [List.getElem?_eq_none (Nat.le_of_not_lt outside)]
      cases new : [Task.new program stopsOnError][t' - x.tasks.length]? with
      | none => rfl
      | some task =>
        rw [List.mem_singleton.1 (List.mem_of_getElem? new)]
        rfl
  | @operates b op o _ carried leads =>
    refine .errand (t := 0) carried (registry_set_self (inside_of_carried carried) leads.buses)
      (fun b' other => registry_set_ne other leads.buses) (.refl _)
      (.of_eq (placesOf_of_tasks leads.tasks 0)) (fun t' _ => placesOf_of_tasks leads.tasks t')
      nofun ?_
    rw [leads.stack]
    exact List.mem_cons_of_mem _ List.mem_cons_self
  | fails failed _ _ _ =>
    exact absurd failed (sound.carried_of_free lawful (sound.calm_of_idle idle _) _)

end Executor

end MessageBus
