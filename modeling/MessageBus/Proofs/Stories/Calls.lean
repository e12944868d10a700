import MessageBus.Proofs.Stories.Looks

/-!
# The story of a call

A task that comes to a call resolves it in the first step that goes on with it, and from then on it
looks at the request that it made then (`Executor.Makes`), as often as it goes on. At most one of
its steps grants the request. All the others rest, however often the call was suspended and called,
for something or for nothing (`Executor.Once`). With that step the call is over, and its reply is
the value that was granted.

What the steps so far have come to can be told from where the task is, from what it keeps, and from
the frame of its turn (`Executor.Fate`).
-/

namespace MessageBus.Executor

variable {u : Usage} {x y : Executor} {f : Frame} {t i b : Nat} {task : Task} {w : Waker}
  {rest : List Frame} {call : Call} {q : Request} {v : Value} {result : Except BusError Value}
  {steps more : List Executor} {replies : List Reply} {Does : Executor → Prop}

/-! ### What the steps of a call come to -/

/-- One of these steps does something, and the others rest. -/
def Once (Does : Executor → Prop) (steps : List Executor) : Prop :=
  ∃ before z after, steps = before ++ z :: after ∧ Does z ∧ ∀ y ∈ before ++ after, y.Rests

/-- Where the task first goes on, the call is resolved to this request. -/
def Makes (t b : Nat) (call : Call) (q : Request) (steps : List Executor) : Prop :=
  ∃ before z after, steps = before ++ z :: after ∧ (∀ y ∈ before, ¬y.Proceeds t) ∧
    z.Proceeds t ∧ call.resolve (z.registry b) = .ok q

/-- What a call has come to: in one step its request was granted, or it failed and moved nothing. -/
inductive Comes (t b : Nat) (call : Call) (steps : List Executor) :
    Except BusError Value → Prop where
  | granted {q : Request} {v : Value} (makes : Makes t b call q steps)
      (once : Once (·.Grants b q v) steps) : Comes t b call steps (.ok v)
  | failed (rests : ∀ y ∈ steps, y.Rests) : Comes t b call steps (.error .noSuchChannel)

theorem Once.append (once : Once Does steps) (rests : ∀ y ∈ more, y.Rests) :
    Once Does (steps ++ more) := by
  obtain ⟨before, z, after, rfl, does, others⟩ := once
  refine ⟨before, z, after ++ more, by simp, does, fun y member => ?_⟩
  rw [← List.append_assoc, List.mem_append] at member
  exact member.elim (others y) (rests y)

theorem once_last (rests : ∀ y ∈ steps, y.Rests) (does : Does x) : Once Does (steps ++ [x]) :=
  ⟨steps, x, [], rfl, does, by rwa [List.append_nil]⟩

theorem Makes.append (makes : Makes t b call q steps) (more : List Executor) :
    Makes t b call q (steps ++ more) := by
  obtain ⟨before, z, after, rfl, earlier, proceeds, resolved⟩ := makes
  exact ⟨before, z, after ++ more, by simp, earlier, proceeds, resolved⟩

theorem Comes.append (comes : Comes t b call steps result) (rests : ∀ y ∈ more, y.Rests) :
    Comes t b call (steps ++ more) result := by
  cases comes with
  | granted makes once => exact .granted (makes.append more) (once.append rests)
  | failed before => exact .failed (List.forall_mem_append.2 ⟨before, rests⟩)

/-! ### Steps of others -/

/-- A task that gives up its places or whose turn is over does not go on, and its step rests. -/
theorem rests_beside (stack : x.stack = f :: rest) (other : f.turn? ≠ some t) :
    ∀ y ∈ x.stepOf t i, y.Rests ∧ ¬y.Proceeds t := by
  intro y member
  rw [stepOf] at member
  split at member
  · rename_i own
    cases List.mem_singleton.1 member
    have own : f.owner? = some t := by
      rw [stack] at own
      exact own.1
    have stays : ¬x.Proceeds t := by
      rintro ⟨w, rest', stack', rfl⟩
      cases stack.symm.trans stack'
      exact other rfl
    have errand : x.errand? = none ∨ ∃ b p, x.errand? = some (b, .abandon p) := by
      cases f with
      | leave _ => exact .inl (by rw [errand?, stack])
      | vacate t' =>
        rw [errand?, stack]
        dsimp only
        cases x.tasks[t']? with
        | none => exact .inl rfl
        | some task =>
          rw [Option.bind_some, Task.placeErrand?]
          cases task.places.head? with
          | none => exact .inl rfl
          | some held => exact .inr ⟨held.1, held.2, rfl⟩
      | _ => exact absurd own other
    rcases errand with none | ⟨b, p, errand⟩
    · exact ⟨rests_of_none none, stays⟩
    · exact ⟨rests_of_abandon errand, stays⟩
  · cases member

/-- After a step of a turn, the frames of the turn are among those that the step has left. -/
theorem Sound.forall_turns {P : Frame → Prop} (sound : x.Sound u) (frames : List Frame)
    (stack : x.stack = f :: rest) (own : f.turn? = some t) (stack' : x.step.stack = frames ++ rest)
    (new : ∀ g ∈ frames, g.turn? = some t → P g) : ∀ g ∈ x.step.stack, g.turn? = some t → P g := by
  intro g member own'
  rw [stack', List.mem_append] at member
  exact member.elim (new g · own') fun old => absurd own' (sound.turn_below stack own old)

/-- After an access, the frame of the turn is the one with which it goes on. -/
theorem Sound.forall_turns_access {P : Frame → Prop} {wakers : List Waker} {notes : List Note}
    {next : Frame} (sound : x.Sound u) (stack : x.stack = f :: rest) (own : f.turn? = some t)
    (stack' : x.step.stack = .release b :: .wake wakers :: .tell notes :: next :: rest)
    (new : P next) : ∀ g ∈ x.step.stack, g.turn? = some t → P g := by
  refine sound.forall_turns [_, _, _, _] stack own stack' fun g member own => ?_
  simp only [List.mem_cons, List.not_mem_nil, or_false] at member
  rcases member with rfl | rfl | rfl | rfl
  · cases own
  · cases own
  · cases own
  · exact new

/-! ### The story so far -/

/-- What a call has come to, by where its task is: it is ahead, it begins, it has made its request
and waits or looks again, it has its answer and the task is about to be told, or the task has gone
on, told or never having begun. -/
inductive Fate (t i b : Nat) (call : Call) (x : Executor) (task : Task)
    (steps : List Executor) (replies : List Reply) : Prop where
  | ahead (position : task.position < i) (steps : steps = []) (replies : replies = [])
  | begins (position : task.position = i) (replies : replies = [])
      (progress : task.progress = .fresh) (before : ∀ y ∈ steps, y.Rests ∧ ¬y.Proceeds t)
      (frames : ∀ f ∈ x.stack, f.turn? = some t → ∃ w, f = .proceed w)
  | waits {q : Request} (position : task.position = i) (replies : replies = [])
      (makes : Makes t b call q steps) (rests : ∀ y ∈ steps, y.Rests)
      (progress : task.life = .ended ∨
        ∃ p recorded, task.progress = .calling b q (some p) recorded)
      (frames : ∀ f ∈ x.stack, f.turn? = some t → (∃ w, f = .proceed w) ∨ f = .suspend t)
  | answered {result : Except BusError Value} (position : task.position = i)
      (replies : replies = []) (comes : Comes t b call steps result)
      (told : ∃ w : Waker, w.task = t ∧ .complete (.task w) (.ofResult result) ∈ x.stack)
      (frames : ∀ f ∈ x.stack, f.turn? = some t →
        ∃ w, f = .complete (.task w) (.ofResult result))
  | told {result : Except BusError Value} (position : i < task.position)
      (comes : Comes t b call steps result) (replies : replies = [.ofResult result])
  | passed (position : i < task.position) (steps : steps = []) (replies : replies = [])

/-- A step of somebody else leaves a call where it is. -/
theorem Fate.beside (fate : Fate t i b call x task steps replies) (sound : x.Sound u)
    (underway : x.Underway) (stack : x.stack = f :: rest) (found : x.tasks[t]? = some task)
    (other : f.turn? ≠ some t) : ∃ task', x.step.tasks[t]? = some task' ∧
      task'.program = task.program ∧
      Fate t i b call x.step task' (steps ++ x.stepOf t i) (replies ++ x.replyTo t i) := by
  obtain ⟨task', found', stays⟩ := sound.kept_beside underway stack found other
  have position := stays.position
  have beside := rests_beside (i := i) stack other
  have now : ∀ y ∈ x.stepOf t i, y.Rests := fun y member => (beside y member).1
  have below {g : Frame} (member : g ∈ rest) : g ∈ x.stack := stack ▸ List.mem_cons_of_mem _ member
  rw [replyTo_of_other stack other, List.append_nil]
  refine ⟨task', found', stays.program, ?_⟩
  cases fate with
  | ahead before none replies =>
    rw [stepOf_of_ne found (Nat.ne_of_lt before), List.append_nil]
    exact .ahead (position ▸ before) none replies
  | begins here replies fresh before frames =>
    refine .begins (position.trans here) replies ?_
      (List.forall_mem_append.2 ⟨before, beside⟩) fun g member own => ?_
    · rcases stays.progress with same | fresh' | ⟨_, _, _, _, waiting⟩
      · exact same.trans fresh
      · exact fresh'
      · cases fresh.symm.trans waiting
    · rcases sound.turns_step stack member own with old | own | ⟨w, _, rfl, -⟩
      · exact frames g (below old) own
      · exact absurd own other
      · exact ⟨w, rfl⟩
  | waits here replies makes rests progress frames =>
    refine .waits (position.trans here) replies (makes.append _)
      (List.forall_mem_append.2 ⟨rests, now⟩) ?_ fun g member own => ?_
    · by_cases ended : task.life = .ended
      · obtain ⟨task'', found'', -, ends⟩ := sound.kept_step found
        cases found'.symm.trans found''
        exact .inl (ends ended)
      · obtain ⟨p, recorded, calling⟩ := progress.resolve_left ended
        rcases sound.call_kept underway found ended calling with goesOn | ⟨task'', found'', same⟩
        · obtain ⟨w, rest', stack', rfl⟩ := goesOn
          cases stack.symm.trans stack'
          exact absurd rfl other
        · cases found'.symm.trans found''
          exact .inr ⟨p, recorded, same⟩
    · rcases sound.turns_step stack member own with old | own | ⟨w, _, rfl, -⟩
      · exact frames g (below old) own
      · exact absurd own other
      · exact .inl ⟨w, rfl⟩
  | answered here replies comes told frames =>
    obtain ⟨w, rfl, member⟩ := told
    have running := sound.life_of_turn member rfl found
    rw [stack] at member
    obtain ⟨above, stack', -⟩ := sound.ages_step stack
    refine .answered (position.trans here) replies (comes.append now) ⟨w, rfl, ?_⟩
      fun g member own => ?_
    · rcases List.mem_cons.1 member with rfl | later
      · exact absurd rfl other
      · rw [stack']
        exact List.mem_append_right _ later
    · rcases sound.turns_step stack member own with old | own | ⟨_, _, -, found'', idle⟩
      · exact frames g (below old) own
      · exact absurd own other
      · cases found.symm.trans found''
        cases running.symm.trans idle
  | told after comes replies =>
    rw [stepOf_of_ne found (Nat.ne_of_gt after), List.append_nil]
    exact .told (position ▸ after) comes replies
  | passed after none replies =>
    rw [stepOf_of_ne found (Nat.ne_of_gt after), List.append_nil]
    exact .passed (position ▸ after) none replies

/-! ### Steps of the task -/

/-- A task that is ahead of a call comes to it, or passes it by, when it is told a reply. -/
theorem fate_of_ahead (before : task.position < i) (sound : x.Sound u)
    (underway : x.Underway) (stack : x.stack = f :: rest) (found : x.tasks[t]? = some task)
    (own : f.turn? = some t) : ∃ task', x.step.tasks[t]? = some task' ∧
      task'.program = task.program ∧ Fate t i b call x.step task' [] [] := by
  by_cases completes : f.Completes
  · obtain ⟨w, reply, rfl⟩ := Frame.Completes.exists_reply completes
    cases own
    obtain ⟨found', stack'⟩ := step_complete stack found
    refine ⟨_, found', rfl, ?_⟩
    rcases Nat.lt_trichotomy (task.advance reply).position i with before | here | after
    · exact .ahead before rfl rfl
    · refine .begins here rfl rfl (List.forall_mem_nil _) ?_
      exact sound.forall_turns [_] stack rfl stack'
        (List.forall_mem_singleton.2 fun _ => ⟨w, rfl⟩)
    · exact .passed after rfl rfl
  · obtain ⟨task', found', program, position⟩ :=
      sound.position_step underway stack found completes
    exact ⟨task', found', program, .ahead (position ▸ before) rfl rfl⟩

/-- A task that looks at its request is granted it, or fails, or waits. -/
theorem fate_of_look {prior : Option Place} {recorded : Bool} (here : task.position = i)
    (rests : ∀ y ∈ steps, y.Rests) (makes : Makes w.task b call q (steps ++ [x]))
    (sound : x.Sound u) (stack : x.stack = .proceed w :: rest)
    (found : x.tasks[w.task]? = some task) (pursues : x.Pursues task b q prior recorded) :
    ∃ task', x.step.tasks[w.task]? = some task' ∧ task'.program = task.program ∧
      Fate w.task i b call x.step task' (steps ++ [x]) [] := by
  obtain ⟨wakers, notes, next, progress, stack', found', looked⟩ :=
    sound.looks_at stack found pursues
  have goesOn {P : Frame → Prop} (new : P next) :
      ∀ g ∈ x.step.stack, g.turn? = some w.task → P g :=
    sound.forall_turns_access stack rfl stack' new
  have all (now : x.Rests) : ∀ y ∈ steps ++ [x], y.Rests :=
    List.forall_mem_append.2 ⟨rests, List.forall_mem_singleton.2 now⟩
  refine ⟨_, found', rfl, ?_⟩
  cases looked with
  | granted grants =>
    exact .answered here rfl (.granted makes (once_last rests grants))
      ⟨w, rfl, by simp [stack', Reply.ofResult]⟩ (goesOn ⟨w, rfl⟩)
  | failed now =>
    exact .answered here rfl (.failed (all now))
      ⟨w, rfl, by simp [stack', Reply.ofResult]⟩ (goesOn ⟨w, rfl⟩)
  | waits now =>
    exact .waits here rfl makes (all now) (.inr ⟨_, _, rfl⟩) (goesOn (.inr rfl))

/-- A task that comes to its call makes the request, or the call fails. -/
theorem fate_of_begin (here : task.position = i) (fresh : task.progress = .fresh)
    (before : ∀ y ∈ steps, y.Rests ∧ ¬y.Proceeds w.task) (sound : x.Sound u)
    (stack : x.stack = .proceed w :: rest) (found : x.tasks[w.task]? = some task)
    (begun : task.program[i]? = some ⟨b, .call call⟩) :
    ∃ task', x.step.tasks[w.task]? = some task' ∧ task'.program = task.program ∧
      Fate w.task i b call x.step task' (steps ++ [x]) [] := by
  have current : task.current? = some ⟨b, .call call⟩ := by rw [Task.current?, here, begun]
  have rests : ∀ y ∈ steps, y.Rests := fun y member => (before y member).1
  cases resolved : call.resolve (x.registry b) with
  | ok q =>
    have makes : Makes w.task b call q (steps ++ [x]) :=
      ⟨steps, x, [], rfl, fun y member => (before y member).2, ⟨w, rest, stack, rfl⟩, resolved⟩
    exact fate_of_look here rests makes sound stack found (.call fresh current resolved)
  | error e =>
    obtain ⟨wakers, notes, stack', found', now⟩ :=
      sound.fails_to_resolve stack found fresh current resolved
    refine ⟨_, found', rfl, .answered here rfl (.failed ?_)
      ⟨w, rfl, by simp [stack', Reply.ofResult]⟩
      (sound.forall_turns_access stack rfl stack' ⟨w, rfl⟩)⟩
    exact List.forall_mem_append.2 ⟨rests, List.forall_mem_singleton.2 now⟩

/-- A task that is suspended in its call keeps its request. -/
theorem fate_of_suspend (here : task.position = i) (makes : Makes t b call q steps)
    (rests : ∀ y ∈ steps, y.Rests)
    (progress : task.life = .ended ∨ ∃ p recorded, task.progress = .calling b q (some p) recorded)
    (sound : x.Sound u) (stack : x.stack = .suspend t :: rest)
    (found : x.tasks[t]? = some task) :
    ∃ task', x.step.tasks[t]? = some task' ∧ task'.program = task.program ∧
      Fate t i b call x.step task' (steps ++ [x]) [] := by
  have suspended : x.step = (({ x with stack := rest } : Executor).happen
      (.pending t)).modifyTask t ({ · with life := .idle }) := step_of_stack_cons stack
  have found' : x.step.tasks[t]? = some { task with life := .idle } := by
    rw [suspended]
    show (x.tasks.modify t _)[t]? = _
    rw [List.getElem?_modify_eq, found]
    rfl
  have running := sound.life_of_turn (stack ▸ List.mem_cons_self) rfl found
  have calling := progress.resolve_left (by rw [running]; exact nofun)
  have now := rests_of_none (x := x) (by rw [errand?, stack])
  refine ⟨_, found', rfl, .waits here rfl (makes.append _) ?_ (.inr calling) ?_⟩
  · exact List.forall_mem_append.2 ⟨rests, List.forall_mem_singleton.2 now⟩
  · exact sound.forall_turns [] stack rfl (by rw [suspended]; rfl) (List.forall_mem_nil _)

/-- A step of its own takes a call on to the next stage of its story. -/
theorem Fate.own (fate : Fate t i b call x task steps replies) (sound : x.Sound u)
    (underway : x.Underway) (stack : x.stack = f :: rest) (found : x.tasks[t]? = some task)
    (own : f.turn? = some t) (begun : task.program[i]? = some ⟨b, .call call⟩) :
    ∃ task', x.step.tasks[t]? = some task' ∧ task'.program = task.program ∧
      Fate t i b call x.step task' (steps ++ x.stepOf t i) (replies ++ x.replyTo t i) := by
  have within : i < task.program.length := (List.getElem?_eq_some_iff.1 begun).1
  -- The frame of the turn is on top, and the fate says what frame that can be.
  have top : f ∈ x.stack := stack ▸ List.mem_cons_self
  have next (here : task.position = i) (reply : Reply) : i < (task.advance reply).position := by
    subst here
    exact Task.lt_position_advance within reply
  cases fate with
  | ahead before none replies =>
    rw [stepOf_of_ne found (Nat.ne_of_lt before), replyTo_of_ne found (Nat.ne_of_lt before), none,
      replies]
    exact fate_of_ahead before sound underway stack found own
  | begins here replies fresh before frames =>
    obtain ⟨w, rfl⟩ := frames f top own
    cases own
    rw [stepOf_of_own stack rfl found here, replies, replyTo, stack]
    exact fate_of_begin here fresh before sound stack found begun
  | waits here replies makes rests progress frames =>
    subst replies
    rw [stepOf_of_own stack (Frame.owner?_of_turn own) found here]
    rcases frames f top own with ⟨w, rfl⟩ | rfl
    · cases own
      have running := sound.life_of_turn top rfl found
      have alive : task.life ≠ .ended := fun ended => by cases running.symm.trans ended
      obtain ⟨p, recorded, calling⟩ := progress.resolve_left alive
      rw [replyTo, stack]
      exact fate_of_look here rests (makes.append _) sound stack found (.calling calling)
    · rw [replyTo, stack]
      exact fate_of_suspend here makes rests progress sound stack found
  | answered here replies comes told frames =>
    subst replies
    obtain ⟨w, rfl⟩ := frames f top own
    cases own
    obtain ⟨found', -⟩ := step_complete stack found
    have now := rests_of_none (x := x) (by rw [errand?, stack])
    rw [stepOf_of_own stack (Frame.owner?_of_turn rfl) found here,
      replyTo_of_complete stack found here]
    have comes := comes.append (List.forall_mem_singleton.2 now)
    exact ⟨_, found', rfl, .told (next here _) comes rfl⟩
  | told after comes replies =>
    obtain ⟨task', found', program, further⟩ := sound.past_step underway stack found own after
    rw [stepOf_of_ne found (Nat.ne_of_gt after), replyTo_of_ne found (Nat.ne_of_gt after),
      List.append_nil, List.append_nil]
    exact ⟨task', found', program, .told further comes replies⟩
  | passed after none replies =>
    obtain ⟨task', found', program, further⟩ := sound.past_step underway stack found own after
    rw [stepOf_of_ne found (Nat.ne_of_gt after), replyTo_of_ne found (Nat.ne_of_gt after),
      List.append_nil, List.append_nil]
    exact ⟨task', found', program, .passed further none replies⟩

/-- A request from outside, which comes between two turns, leaves a call where it is. -/
theorem Fate.ask {s : Step} (fate : Fate t i b call x task steps replies)
    (sound : x.Sound u) (idle : x.stack = []) (lawful : s.Lawful u x.buses.length) {task' : Task}
    (same : task' = task ∨ task' = { task with life := .ended }) :
    Fate t i b call ({ x with log := [], answer := none }.ask s) task' steps replies := by
  have position : task'.position = task.position := by rcases same with rfl | rfl <;> rfl
  have kept : task'.progress = task.progress := by rcases same with rfl | rfl <;> rfl
  have nobody (f : Frame) (member : f ∈ ({ x with log := [], answer := none }.ask s).stack)
      (own : f.turn? = some t) : False := by
    cases own.symm.trans ((sound.cleared.ask_stack idle lawful).1 f member)
  cases fate with
  | ahead before none replies => exact .ahead (position ▸ before) none replies
  | begins here replies fresh before frames =>
    exact .begins (position.trans here) replies (kept.trans fresh) before
      fun f member own => (nobody f member own).elim
  | waits here replies makes rests progress frames =>
    refine .waits (position.trans here) replies makes rests ?_
      fun f member own => (nobody f member own).elim
    rcases same with rfl | rfl
    · exact progress
    · exact .inl rfl
  | answered here replies comes told frames =>
    obtain ⟨w, -, member⟩ := told
    rw [idle] at member
    cases member
  | told after comes replies => exact .told (position ▸ after) comes replies
  | passed after none replies => exact .passed (position ▸ after) none replies

/-- A step leaves a call, whoever goes on in it, at one of its fates. -/
theorem Fate.step (fate : Fate t i b call x task steps replies) (sound : x.Sound u)
    (underway : x.Underway) (stack : x.stack = f :: rest) (found : x.tasks[t]? = some task)
    (begun : task.program[i]? = some ⟨b, .call call⟩) :
    ∃ task', x.step.tasks[t]? = some task' ∧ task'.program = task.program ∧
      Fate t i b call x.step task' (steps ++ x.stepOf t i) (replies ++ x.replyTo t i) := by
  by_cases own : f.turn? = some t
  · exact fate.own sound underway stack found own begun
  · exact fate.beside sound underway stack found own

/-- A task that was not yet spawned has made no step and was told nothing. -/
theorem Story.nothing_of_absent (story : Story u t i x steps replies)
    (absent : x.tasks[t]? = none) : steps = [] ∧ replies = [] := by
  induction story with
  | new inline => exact ⟨rfl, rfl⟩
  | @step x steps replies story ih =>
    have before : x.tasks[t]? = none := by
      cases found : x.tasks[t]? with
      | none => rfl
      | some task =>
        obtain ⟨task', found', -⟩ := story.reachable.sound.kept_step found
        cases absent.symm.trans found'
    obtain ⟨rfl, rfl⟩ := ih before
    exact ⟨stepOf_of_none before, replyTo_of_none before⟩
  | @ask x steps replies s story idle lawful ih =>
    refine ih ?_
    cases found : x.tasks[t]? with
    | none => rfl
    | some task =>
      rcases story.reachable.sound.cleared.kept_ask idle lawful found with found' | found' <;>
        cases absent.symm.trans found'

/-- In a run, the story of a call comes to one of these fates. -/
theorem Story.fate (story : Story u t i x steps replies) (found : x.tasks[t]? = some task)
    (begun : task.program[i]? = some ⟨b, .call call⟩) :
    Fate t i b call x task steps replies := by
  induction story generalizing task with
  | new inline => cases found
  | @step x steps replies story ih =>
    have sound := story.reachable.sound
    cases stack : x.stack with
    | nil =>
      have idle : x.stepOf t i = [] ∧ x.replyTo t i = [] := by
        rw [stepOf, replyTo, stack]
        exact ⟨if_neg (by simp), rfl⟩
      rw [step_of_stack_nil stack] at found ⊢
      rw [idle.1, idle.2, List.append_nil, List.append_nil]
      exact ih found begun
    | cons f rest =>
      obtain ⟨frames, -, ages⟩ := sound.ages_step stack
      obtain ⟨change, tasks, ages⟩ := ages t
      rw [tasks] at found
      obtain ⟨before, there, rfl⟩ := Option.map_eq_some_iff.1 found
      rw [(ages before there).program] at begun
      obtain ⟨after, there', -, fate⟩ :=
        (ih there begun).step sound story.reachable.underway stack there begun
      rw [tasks, there, Option.map_some] at there'
      cases there'
      exact fate
  | @ask x steps replies s story idle lawful ih =>
    have sound := story.reachable.sound.cleared
    rcases sound.ask_tasks idle lawful t with
      ⟨change, tasks, changes⟩ | ⟨none, program, stops, new⟩
    · rw [tasks] at found
      obtain ⟨before, there, rfl⟩ := Option.map_eq_some_iff.1 found
      have same := changes before
      have program : (change before).program = before.program := by
        rcases same with same | same <;> rw [same]
      exact (ih there (program ▸ begun)).ask story.reachable.sound idle lawful same
    · -- The task is new, so the call is its first instruction or still ahead.
      obtain ⟨rfl, rfl⟩ := story.nothing_of_absent none
      cases new.symm.trans found
      rcases Nat.eq_zero_or_pos i with rfl | pos
      · refine .begins rfl rfl rfl (List.forall_mem_nil _) fun f member own => ?_
        cases own.symm.trans ((sound.ask_stack idle lawful).1 f member)
      · exact .ahead pos rfl rfl

/-! ### What a call comes to -/

/-- How a call is answered, once at most, and what its steps have done by then: if it was granted a
value they are `Done` with it, and if it failed, or its task is not in the middle of a turn, because
it waits or was dropped, they all rest. -/
structure IsAnswered (Done : Value → List Executor → Prop) (task : Task) (steps : List Executor)
    (replies : List Reply) : Prop where
  ending : replies = [] ∨ (∃ v, replies = [.granted v]) ∨ replies = [.refused .noSuchChannel]
  granted : ∀ v, replies = [.granted v] → Done v steps
  refused : replies = [.refused .noSuchChannel] → ∀ y ∈ steps, y.Rests
  pending : replies = [] → task.life ≠ .running → ∀ y ∈ steps, y.Rests
  running : replies = [] → task.life = .running → (∃ v, Done v steps) ∨ ∀ y ∈ steps, y.Rests

theorem IsAnswered.mono {Done Done' : Value → List Executor → Prop}
    (answered : IsAnswered Done task steps replies) (imp : ∀ v, Done v steps → Done' v steps) :
    IsAnswered Done' task steps replies where
  ending := answered.ending
  granted v granted := imp v (answered.granted v granted)
  refused := answered.refused
  pending := answered.pending
  running none running := (answered.running none running).imp_left fun ⟨v, done⟩ => ⟨v, imp v done⟩

/-- A call that was granted a value has made one request, and one step has carried it out. -/
def CarriedOut (t b : Nat) (call : Call) (v : Value) (steps : List Executor) : Prop :=
  ∃ q, Makes t b call q steps ∧ Once (·.Grants b q v) steps

theorem Fate.isAnswered (fate : Fate t i b call x task steps replies) (sound : x.Sound u)
    (found : x.tasks[t]? = some task) : IsAnswered (CarriedOut t b call) task steps replies := by
  have nothing (none : replies = []) (rests : ∀ y ∈ steps, y.Rests) :
      IsAnswered (CarriedOut t b call) task steps replies := by
    subst none
    exact ⟨.inl rfl, nofun, nofun, fun _ _ => rests, fun _ _ => .inr rests⟩
  cases fate with
  | ahead _ none replies => exact nothing replies (none ▸ List.forall_mem_nil _)
  | begins _ replies _ before _ => exact nothing replies fun y member => (before y member).1
  | waits _ replies _ rests _ _ => exact nothing replies rests
  | answered _ replies comes told _ =>
    obtain ⟨w, own, member⟩ := told
    have running := sound.life_of_turn member (congrArg some own) found
    subst replies
    refine ⟨.inl rfl, nofun, nofun, fun _ stopped => absurd running stopped, fun _ _ => ?_⟩
    cases comes with
    | granted makes once => exact .inl ⟨_, _, makes, once⟩
    | failed rests => exact .inr rests
  | told _ comes replies =>
    subst replies
    cases comes with
    | granted makes once =>
      refine ⟨.inr (.inl ⟨_, rfl⟩), fun v granted => ?_, nofun, nofun, nofun⟩
      cases granted
      exact ⟨_, makes, once⟩
    | failed rests => exact ⟨.inr (.inr rfl), nofun, fun _ => rests, nofun, nofun⟩
  | passed _ none replies => exact nothing replies (none ▸ List.forall_mem_nil _)

/-- In every run a call is answered once at most. If it is granted, one of its steps has carried out
the request that it made when it began, and no other step of it moved a message. -/
theorem Story.isAnswered (story : Story u t i x steps replies) (found : x.tasks[t]? = some task)
    (begun : task.program[i]? = some ⟨b, .call call⟩) :
    IsAnswered (CarriedOut t b call) task steps replies :=
  (story.fate found begun).isAnswered story.reachable.sound found

end MessageBus.Executor
