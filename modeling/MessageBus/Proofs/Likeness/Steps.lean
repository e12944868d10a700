import MessageBus.Proofs.Asides
import MessageBus.Proofs.Likeness.Changes
import MessageBus.Proofs.Turns
import MessageBus.Proofs.Unfolding.Asks

/-!
# Executors stay alike

A small step leaves executors alike if the errand that it is on comes to the same on both
(`Executor.Alike.step`), and so does a request from outside (`Executor.Alike.ask`). There is one
lemma for each function that a step is made of.
-/

namespace MessageBus.Executor

variable {L : Likeness} {waits asked : Prop} {differs : Nat → Nat → Prop} {x y z z' : Executor}
  {t b : Nat} {w : Waker}
  {task task' : Task} {p p' : Place} {q : Request}

/-! ### Errands -/

theorem Served.operate {op : Operation} (served : x.Served L waits y b (.operate op)) :
    ∃ o o', op.apply (x.registry b) = .ok o ∧ op.apply (y.registry b) = .ok o' ∧
      o.Alike (L.registry b) (Reply.Alike (op.sight.Shows waits)) o' := by
  obtain ⟨⟨_, effect⟩, serves⟩ := served
  obtain ⟨o, ran, -⟩ := Outcome.of_map_eq_ok effect
  obtain ⟨o', ran', alike⟩ := serves o ran
  exact ⟨o, o', ran, ran', alike⟩

theorem Served.look {prior prior' : Option Place} (served : x.Served L waits y b (.look q prior w))
    (places : Option.Rel (L.place b) prior prior') :
    ∃ o o', q.look (x.registry b) prior w = .ok o ∧ q.look (y.registry b) prior' w = .ok o' ∧
      o.Alike (L.registry b) (Turn.Alike (L.place b)) o' := by
  obtain ⟨⟨_, effect⟩, serves⟩ := served
  obtain ⟨o, ran, -⟩ := Outcome.of_map_eq_ok effect
  obtain ⟨o', ran', alike⟩ := serves prior' places o ran
  exact ⟨o, o', ran, ran', alike⟩

theorem Served.park {a : Address} {side : Side} (served : x.Served L waits y b (.park a side w)) :
    ∃ o o', (x.registry b).park a side w = .ok o ∧ (y.registry b).park a side w = .ok o' ∧
      o.Alike (L.registry b) (Option.Rel (L.place b)) o' := by
  obtain ⟨⟨_, effect⟩, serves⟩ := served
  obtain ⟨o, ran, -⟩ := Outcome.of_map_eq_ok effect
  obtain ⟨o', ran', alike⟩ := serves o ran
  exact ⟨o, o', ran, ran', alike⟩

/-- Where registries may stand for each other, so may what is found open under a handle. -/
theorem Alike.glance (alike : x.Alike L differs asked y) (inside : b < x.buses.length)
    (h : Handle) : (y.registry b).resolve h = (x.registry b).resolve h :=
  L.resolve (alike.registry inside) h

/-! ### Giving up a place -/

theorem Alike.giveUp (alike : x.Alike L differs asked y) {forget forget' : Executor → Executor}
    (served : x.Served L waits y b (.abandon p)) (places : L.place b p p')
    (forgets : ∀ z z', z.tasks = x.tasks → z.Alike L differs asked z' →
      (forget z).Alike L differs asked (forget' z')) :
    (x.giveUp b p forget).Alike L differs asked (y.giveUp b p' forget') := by
  rw [Executor.giveUp, Executor.giveUp, alike.isInUse, alike.hasFailed]
  split
  · split
    · exact forgets x y rfl alike
    · exact (forgets x y rfl alike).fail _
  · exact alike.access ⟨_, _, rfl, rfl, served.2 p' places⟩
      fun _ _ z z' same like _ => forgets z z' same like

theorem Alike.replaceStream (alike : x.Alike L differs asked y) {stream stream' : Option Stream}
    (streams : Option.Rel L.Streams stream stream') {frames : List Frame}
    (served : ∀ b p, (x.tasks[t]?).bind (·.streamPlace) = some (b, p) →
      x.Served L waits y b (.abandon p)) :
    (x.replaceStream t stream frames).Alike L differs asked (y.replaceStream t stream' frames) := by
  have replaces (z z' : Executor) (like : z.Alike L differs asked z') :
      ((z.modifyTask t ({ · with stream })).push frames).Alike L differs asked
        ((z'.modifyTask t ({ · with stream := stream' })).push frames) :=
    (like.setStream streams).pushSame frames
  rw [Executor.replaceStream, Executor.replaceStream]
  cases found : x.tasks[t]? with
  | none =>
    rw [alike.missing found]
    exact replaces x y alike
  | some task =>
    obtain ⟨task', found', tasks⟩ := alike.found found
    have places := tasks.streamPlace
    rw [found, Option.bind_some] at served
    rw [found', Option.bind_some, Option.bind_some]
    generalize task.streamPlace = before at places served ⊢
    generalize task'.streamPlace = after at places ⊢
    cases places with
    | none => exact replaces x y alike
    | @some held held' places =>
      obtain ⟨b, p⟩ := held
      obtain ⟨b', p'⟩ := held'
      obtain ⟨same, places⟩ := places
      obtain rfl : b' = b := same
      exact alike.giveUp (served b' p rfl) places fun z z' _ like => replaces z z' like

theorem Alike.dropTask (alike : x.Alike L differs asked y) (t : Nat) (frames : Bool → List Frame) :
    (x.dropTask t frames).Alike L differs asked (y.dropTask t frames) := by
  rw [Executor.dropTask, Executor.dropTask]
  cases found : x.tasks[t]? with
  | none =>
    rw [alike.missing found]
    exact alike.pushSame _
  | some task =>
    obtain ⟨task', found', tasks⟩ := alike.found found
    simp only [found', tasks.isIdle]
    split
    · exact (alike.setLife .ended).pushSame _
    · exact alike.pushSame _

/-! ### Going on from an errand -/

theorem Alike.takeTurn (alike : z.Alike L differs asked z') {turn turn' : Turn} {recorded : Bool}
    (turns : turn.Alike (L.place b) turn') :
    (takeTurn w b recorded turn z).Alike L differs asked (takeTurn w b recorded turn' z') := by
  cases turns with
  | finished result =>
    have kept (z z' : Executor) (like : z.Alike L differs asked z') :
        ((z.keep w.task .fresh).push [.complete (.task w) (.ofResult result)]).Alike L differs asked
          ((z'.keep w.task .fresh).push [.complete (.task w) (.ofResult result)]) :=
      (like.keep .fresh).pushSame _
    cases recorded with
    | false => exact kept z z' alike
    | true => exact kept _ _ (alike.recordSame _)
  | parked q places => exact (alike.keep (.calling b q recorded (.some places))).pushSame _
  | waiting => exact alike.pushSame _
  | again q => exact (alike.keep (.calling b q recorded .none)).pushSame _

theorem Alike.takeStreamTurn (alike : z.Alike L differs asked z') {turn turn' : Turn}
    {s s' : Stream} {frame : Frame} (streams : L.Streams s s')
    (turns : turn.Alike (L.place s.bus) turn') :
    (takeStreamTurn w s frame turn z).Alike L differs asked
      (takeStreamTurn w s' frame turn' z') := by
  obtain ⟨bus, handle, id, place⟩ := s
  obtain ⟨_, _, _, place'⟩ := s'
  cases streams.same
  cases turns with
  | finished result =>
    cases result with
    | ok v => exact (alike.setStream (.some (Likeness.streams_of_place rfl))).pushSame _
    | error e =>
      exact ((alike.recordSame _).setStream
        (.some (Likeness.streams_of_place rfl))).pushSame _
  | parked q places => exact (alike.setStream (.some ⟨rfl, .some places⟩)).pushSame _
  | waiting => exact alike.pushSame _
  | again q => exact alike.pushSame _

theorem Alike.pollStream (alike : x.Alike L differs asked y) (tasks : L.Tasks t task task')
    (served : ∀ b e, task.stream.bind (·.errand? w) = some (b, e) → x.Served L waits y b e) :
    (x.pollStream w task).Alike L differs asked (y.pollStream w task') := by
  have stream := tasks.stream
  rw [Executor.pollStream, Executor.pollStream, tasks.current?]
  generalize task.stream = before at stream served ⊢
  generalize task'.stream = after at stream ⊢
  cases stream with
  | none => exact alike.pushSame _
  | @some s s' streams =>
    obtain ⟨bus, handle, id, place⟩ := s
    obtain ⟨_, _, _, place'⟩ := s'
    cases streams.same
    cases id with
    | none => exact alike.pushSame _
    | some id =>
      have looks := (served bus _ rfl).look streams.place
      have places : Option.Rel (L.place bus) place place' := streams.place
      cases places with
      | none => exact alike.access looks fun _ _ _ _ _ like => like.takeStreamTurn streams
      | some _ => exact alike.access looks fun _ _ _ _ _ like => like.takeStreamTurn streams

/-! ### Going on with an instruction -/

theorem Alike.act (alike : x.Alike L differs asked y) (caller : Caller) (action : Action)
    (served : ∀ op, action = .operate op → x.Served L waits y b (.operate op))
    (shows : action.sight.Shows waits → caller.MayDiffer x.tasks differs asked) :
    (x.act b caller action).Alike L differs asked (y.act b caller action) := by
  cases action with
  | operate op =>
    rw [Executor.act, Executor.act]
    refine alike.access (served op rfl).operate fun reply reply' z z' same like replies => ?_
    refine (like.record replies).push
      (.cons (.complete caller (replies.mono fun shown => ?_)) .nil)
    show caller.MayDiffer z.tasks differs asked
    rw [same]
    exact shows shown
  | describe =>
    rw [Executor.act, Executor.act, alike.summary]
    exact alike.pushSame _
  | dump => exact alike.push (.cons (.complete caller (.text (shows trivial) _ _)) .nil)
  | describeInUse => exact alike.pushSame _
  | lastError =>
    rw [Executor.act, Executor.act, alike.slot]
    exact alike.pushSame _
  | setLastError code => exact (alike.setSlot code).pushSame _
  | drop t =>
    rw [Executor.act, Executor.act]
    exact alike.dropTask t _

/-- What is found open under a handle is the same, and nothing changes. -/
theorem Alike.look (alike : x.Alike L differs asked y) (inside : b < x.buses.length) {α : Type}
    {see : Registry Waker → α} (same : see (y.registry b) = see (x.registry b))
    {next next' : α → Executor → Executor}
    (goesOn : ∀ a z z', z.tasks = x.tasks → z.Alike L differs asked z' →
      (next a z).Alike L differs asked (next' a z')) :
    (x.access b (fun r => .ok { answer := see r, state := r }) next).Alike L differs asked
      (y.access b (fun r => .ok { answer := see r, state := r }) next') := by
  let seen (r : Registry Waker) : Outcome (Registry Waker) Waker α :=
    { answer := see r, state := r }
  have seeing : (seen (x.registry b)).Alike (L.registry b) (· = ·) (seen (y.registry b)) :=
    ⟨same.symm, alike.registry inside, rfl⟩
  refine alike.access ⟨_, _, rfl, rfl, seeing⟩ ?_
  rintro a _ z z' same like rfl
  exact goesOn a z z' same like

theorem Alike.startCall {c : Call} (alike : x.Alike L differs asked y)
    (inside : b < x.buses.length)
    (served : ∀ q, c.resolve (x.registry b) = .ok q → x.Served L waits y b (.look q none w)) :
    (x.access b (fun r => c.start r w) (Executor.takeTurn w b true)).Alike L differs asked
      (y.access b (fun r => c.start r w) (Executor.takeTurn w b true)) := by
  have resolved : c.resolve (y.registry b) = c.resolve (x.registry b) := by
    cases c <;> simp only [Call.resolve, alike.glance inside]
  refine alike.access ?_ fun a a' z z' _ like turns => like.takeTurn turns
  simp only [Call.start, resolved]
  cases known : c.resolve (x.registry b) with
  | error e => exact ⟨_, _, rfl, rfl, .finished _, alike.registry inside, rfl⟩
  | ok q => exact (served q known).look .none

theorem Alike.start (alike : x.Alike L differs asked y) {i : Instruction}
    (found : x.tasks[w.task]? = some task) (tasks : L.Tasks w.task task task')
    (inside : i.bus < x.buses.length)
    (shows : i.deed.sight.Shows waits → differs w.task task.position)
    (served : ∀ b e, x.startErrand? w task i = some (b, e) → x.Served L waits y b e) :
    (x.start w task i).Alike L differs asked (y.start w task' i) := by
  obtain ⟨b, deed⟩ := i
  have stream := tasks.stream
  rw [startErrand?] at served
  rw [Executor.start, Executor.start]
  cases deed with
  | act action =>
    have served (op : Operation) (same : action = .operate op) :
        x.Served L waits y b (.operate op) := by
      subst same
      exact served b _ rfl
    exact alike.act _ action served fun shown => ⟨task, found, shows shown⟩
  | call c =>
    refine alike.startCall inside fun q known => served b _ ?_
    simp only [known]
  | yield => exact (alike.keep .yielded).pushSame _
  | stream h =>
    refine alike.look inside ?_ fun a z z' _ like => like.pushSame _
    rw [alike.glance inside]
  | next | tryNext | collect => exact alike.pollStream tasks served
  | hasEnded =>
    generalize task.stream = before at stream ⊢
    generalize task'.stream = after at stream ⊢
    cases stream with
    | none => exact alike.pushSame _
    | some streams =>
      simp only [streams.id]
      exact alike.pushSame _
  | describeStream =>
    generalize task.stream = before at stream ⊢
    generalize task'.stream = after at stream ⊢
    cases stream with
    | none => exact alike.pushSame _
    | @some s s' streams =>
      have place : s'.place.isSome = s.place.isSome := by
        have places := streams.place
        generalize s.place = before at places ⊢
        generalize s'.place = after at places ⊢
        cases places <;> rfl
      simp only [streams.handle, streams.id, place]
      exact alike.pushSame _
  | dropStream =>
    have same : task'.stream.isSome = task.stream.isSome := by
      generalize task.stream = before at stream ⊢
      generalize task'.stream = after at stream ⊢
      cases stream <;> rfl
    simp only [same]
    refine alike.replaceStream .none fun b' p holds => served b' _ ?_
    rw [found, Option.bind_some] at holds
    simp only [Task.streamErrand?, holds]
    rfl
  | resolve h =>
    refine alike.look inside (alike.glance inside h) fun a z z' _ like => ?_
    cases a with
    | error e => exact like.pushSame _
    | ok a =>
      exact (like.modifyTask (fun _ _ _ tasks => tasks.remember _)
        (.inl fun _ => rfl)).pushSame _
  | recvFrom h =>
    rw [tasks.remembered]
    cases remembered : task.remembered with
    | none => exact alike.pushSame _
    | some id =>
      rw [remembered] at served
      exact alike.access ((served b _ rfl).look .none) fun a a' z z' _ like turns =>
        like.takeTurn turns
  | wait h side =>
    rw [tasks.remembered]
    cases remembered : task.remembered with
    | none => exact alike.pushSame _
    | some id =>
      rw [remembered] at served
      refine alike.access (served b _ rfl).park fun a a' z z' _ like places => ?_
      cases places with
      | none => exact like.push (.cons (.conclude ..) .nil)
      | some places => exact (like.keep (.waiting b places _ _ _ _)).pushSame _

theorem Alike.proceed (alike : x.Alike L differs asked y) {u : Usage}
    (sound : task.Sound u x.buses.length) (found : x.tasks[w.task]? = some task)
    (tasks : L.Tasks w.task task task') (present : ¬L.absent w.task task.progress)
    (shows : ∀ i ∈ task.current?, i.deed.sight.Shows waits → differs w.task task.position)
    (served : ∀ b e, x.taskErrand? w task = some (b, e) → x.Served L waits y b e) :
    (x.proceed w task).Alike L differs asked (y.proceed w task') := by
  have progress := tasks.progress
  rw [taskErrand?] at served
  rw [Executor.proceed, Executor.proceed, tasks.current?]
  have kept := sound.progress
  generalize task.progress = before at progress served present kept ⊢
  generalize task'.progress = after at progress ⊢
  cases progress with
  | fresh =>
    cases current : task.current? with
    | none =>
      refine alike.replaceStream .none fun b p holds => served b _ ?_
      rw [found, Option.bind_some] at holds
      simp only [current, Task.streamErrand?, holds]
      rfl
    | some i =>
      simp only [current] at served
      exact alike.start found tasks (sound.program i (List.mem_of_getElem? current)).1
        (shows i current) served
  | @calling b q prior prior' recorded places =>
    have looks := (served b _ rfl).look places
    cases places with
    | none => exact alike.access looks fun _ _ _ _ _ like => like.takeTurn
    | some _ => exact alike.access looks fun _ _ _ _ _ like => like.takeTurn
  | yielded => exact alike.pushSame _
  | collecting items => exact alike.pollStream tasks served
  | @waiting b p p' places before before' after after' =>
    obtain ⟨address, side⟩ := L.address places
    refine alike.access ⟨_, _, rfl, rfl, (served b _ rfl).2 p' places⟩ ?_
    rintro standing _ z z' - like rfl
    have leaves (result : Except BusError Unit) :
        ((z.keep w.task .fresh).push [.conclude w before after b p.address p.side result]).Alike L
          differs asked ((z'.keep w.task .fresh).push
            [.conclude w before' after' b p'.address p'.side result]) := by
      rw [address, side]
      exact (like.keep .fresh).push (.cons (.conclude ..) .nil)
    cases standing with
    | queued => exact like.pushSame _
    | called => exact leaves _
    | gone => exact leaves _
  | absent gone => exact absurd gone present

/-! ### Frames -/

theorem Alike.rouse (alike : x.Alike L differs asked y) (w : Waker) :
    (x.rouse w).Alike L differs asked (y.rouse w) := by
  rw [Executor.rouse, Executor.rouse]
  cases found : x.tasks[w.task]? with
  | none =>
    rw [alike.missing found]
    exact alike
  | some task =>
    obtain ⟨task', found', tasks⟩ := alike.found found
    simp only [found', tasks.isAlive, tasks.isIdle, alike.inline, alike.ready]
    split
    · split
      · exact alike.pushSame _
      · split
        · exact alike
        · exact { alike.setReady _ with inline := rfl }
    · exact alike

theorem Alike.receive (alike : x.Alike L differs asked y) (tasks : L.Tasks w.task task task')
    (item : Option Message) :
    (x.receive w task item).Alike L differs asked (y.receive w task' item) := by
  have progress := tasks.progress
  rw [Executor.receive, Executor.receive, tasks.current?]
  split
  · generalize task.progress = before at progress ⊢
    generalize task'.progress = after at progress ⊢
    cases progress with
    | absent gone =>
      -- Whoever has no counterpart of its progress is in a call, and has collected nothing.
      obtain ⟨b, q, p, recorded, rfl⟩ := L.calling gone
      cases item with
      | some m => exact (alike.keep (.collecting _)).pushSame _
      | none => exact alike.pushSame _
    | _ =>
      cases item with
      | some m => exact (alike.keep (.collecting _)).pushSame _
      | none => exact alike.pushSame _
  · exact alike.pushSame _

theorem Alike.observe (alike : x.Alike L differs asked y) (tasks : L.Tasks t task task') :
    (x.observe t task).Alike L differs asked (y.observe t task') := by
  have progress := tasks.progress
  rw [Executor.observe, Executor.observe]
  generalize task.progress = before at progress ⊢
  generalize task'.progress = after at progress ⊢
  cases progress with
  | waiting b places before before' after after' =>
    exact alike.keep (.waiting b places _ _ _ _)
  | absent gone =>
    obtain ⟨b, q, p, recorded, rfl⟩ := L.calling gone
    exact alike
  | _ => exact alike

theorem Alike.vacate (alike : x.Alike L differs asked y) (found : x.tasks[t]? = some task)
    (tasks : L.Tasks t task task') (present : ¬L.absent t task.progress)
    (served : ∀ b e, task.placeErrand? = some (b, e) → x.Served L waits y b e) :
    (x.vacate t task).Alike L differs asked (y.vacate t task') := by
  have places := tasks.places present
  rw [Task.placeErrand?] at served
  rw [Executor.vacate, Executor.vacate]
  generalize task.places = before at places served ⊢
  generalize task'.places = after at places ⊢
  cases places with
  | nil => exact alike
  | @cons held held' _ _ place _ =>
    obtain ⟨b, p⟩ := held
    obtain ⟨b', p'⟩ := held'
    obtain ⟨same, place⟩ := place
    obtain rfl : b' = b := same
    refine (alike.pushSame [.vacate t]).giveUp (served b' _ rfl) place fun z z' same like => ?_
    refine like.modifyTask (fun task₁ task₂ found' tasks' => ?_) (.inl fun task => ?_)
    · have found' : x.tasks[t]? = some task₁ := by
        rw [← found', same]
        rfl
      cases found.symm.trans found'
      exact tasks'.giveUpPlace present
    · rw [Task.giveUpPlace]
      split <;> rfl

theorem Alike.drain (alike : x.Alike L differs asked y) (limit : Option Nat) (polled : Nat) :
    (x.drain limit polled).Alike L differs asked (y.drain limit polled) := by
  have alive (t : Nat) := alike.map_getD (t := t) (·.isAlive) fun _ _ => (·.isAlive)
  unfold Executor.drain
  rw [alike.ready]
  split
  · exact alike.respondSame _
  · exact alike.respondSame _
  · simp only [alive]
    split
    · exact (alike.setReady _).pushSame _
    · exact (alike.setReady _).pushSame _

/-! ### Steps -/

/-- The task that goes on or gives up a place next has its counterpart in all. -/
def Present (L : Likeness) (x : Executor) : Prop :=
  ∀ f rest t task, x.stack = f :: rest → ((∃ w, f = .proceed w ∧ w.task = t) ∨ f = .vacate t) →
    x.tasks[t]? = some task → ¬L.absent t task.progress

section

variable {u : Usage} {rest : List Frame}

theorem Alike.performProceed (under : ({ x with stack := rest } : Executor).Alike L differs asked z)
    (sound : x.Sound u) (present : x.Present L) (shows : x.LetsDiffer waits differs)
    (served : ∀ b e, x.errand? = some (b, e) → x.Served L waits z b e)
    (stack : x.stack = .proceed w :: rest) :
    (({ x with stack := rest } : Executor).perform (.proceed w)).Alike L differs asked
      (z.perform (.proceed w)) := by
  refine under.withTask fun task task' found tasks => ?_
  have found' : x.tasks[w.task]? = some task := found
  have shows := shows (.proceed w) (by rw [stack]; rfl) task found'
  have served (b : Nat) (e : Errand Waker) (errand : x.taskErrand? w task = some (b, e)) :
      x.Served L waits z b e := by
    refine served b e ?_
    rw [errand?, stack]
    simp only [found', Option.bind_some]
    exact errand
  exact under.proceed (sound.tasks task (List.mem_of_getElem? found')) found tasks
    (present _ _ w.task task stack (.inl ⟨w, rfl, rfl⟩) found') shows served

theorem Alike.performComplete {caller : Caller} {reply reply' : Reply}
    (under : ({ x with stack := rest } : Executor).Alike L differs asked z) (sound : x.Sound u)
    (stack : x.stack = .complete caller reply :: rest)
    (replies : reply.Alike (caller.MayDiffer x.tasks differs asked) reply') :
    (({ x with stack := rest } : Executor).perform (.complete caller reply)).Alike L differs asked
      (z.perform (.complete caller reply')) := by
  cases caller with
  | outside => exact under.respond replies
  | task w =>
    refine under.withTask fun task task' found tasks => ?_
    have found' : x.tasks[w.task]? = some task := found
    rw [tasks.position]
    have events : Event.Alike differs (.completed w.task task.position reply)
        (.completed w.task task.position reply') := by
      refine .completed _ _ (replies.mono ?_)
      rintro ⟨task', found'', may⟩
      cases found'.symm.trans found''
      exact may
    refine ((under.happen events rfl).modifyTask (fun _ _ _ tasks => tasks.advance replies)
      (.inr fun w' reply'' member => ?_)).pushSame _
    -- The reply that is on its way to this task is the one that has just come.
    obtain ⟨_, below, rest_eq, turn⟩ := sound.inTurn stack rfl
    intro own
    have member : Frame.complete (.task w') reply'' ∈ rest := member
    rw [rest_eq] at member
    rcases List.mem_cons.1 member with same | member
    · cases same
    · exact turn.once (own ▸ turn.below.leave_of_turn member rfl)

theorem Alike.performAdopt {s : Stream}
    (under : ({ x with stack := rest } : Executor).Alike L differs asked z) (sound : x.Sound u)
    (served : ∀ b e, x.errand? = some (b, e) → x.Served L waits z b e)
    (stack : x.stack = .adopt w s :: rest) :
    (({ x with stack := rest } : Executor).perform (.adopt w s)).Alike L differs asked
      (z.perform (.adopt w s)) := by
  obtain ⟨task, below, -, turn⟩ := sound.inTurn stack rfl
  have free : s.place = none := turn.suits.2.2
  have served (b : Nat) (p : Place)
      (holds : (x.tasks[w.task]?).bind (·.streamPlace) = some (b, p)) :
      x.Served L waits z b (.abandon p) := by
    refine served b _ ?_
    rw [turn.found, Option.bind_some] at holds
    rw [errand?, stack]
    simp only [turn.found, Option.bind_some, Task.streamErrand?, holds]
    rfl
  exact under.replaceStream (.some (Likeness.streams_of_place free)) served

theorem Alike.performVacate
    (under : ({ x with stack := rest } : Executor).Alike L differs asked z) (present : x.Present L)
    (served : ∀ b e, x.errand? = some (b, e) → x.Served L waits z b e)
    (stack : x.stack = .vacate t :: rest) :
    (({ x with stack := rest } : Executor).perform (.vacate t)).Alike L differs asked
      (z.perform (.vacate t)) := by
  refine under.withTask fun task task' found tasks => ?_
  have found' : x.tasks[t]? = some task := found
  have served (b : Nat) (e : Errand Waker) (errand : task.placeErrand? = some (b, e)) :
      x.Served L waits z b e := by
    refine served b e ?_
    rw [errand?, stack]
    simp only [found', Option.bind_some]
    exact errand
  exact under.vacate found tasks (present _ _ t task stack (.inr rfl) found') served

end

theorem Alike.step {u : Usage} (alike : x.Alike L differs asked y) (sound : x.Sound u)
    (present : x.Present L) (shows : x.LetsDiffer waits differs)
    (served : ∀ b e, x.errand? = some (b, e) → x.Served L waits y b e) :
    x.step.Alike L differs asked y.step := by
  cases stack : x.stack with
  | nil =>
    rw [step_of_stack_nil stack, step_of_stack_nil (alike.idle stack)]
    exact alike
  | cons f rest =>
    have frames := alike.stack
    rw [stack] at frames
    obtain ⟨f', rest', stack', top, below⟩ : ∃ f' rest', y.stack = f' :: rest' ∧
        f.Alike (Caller.MayDiffer x.tasks differs asked) f' ∧
        List.Forall₂ (Frame.Alike (Caller.MayDiffer x.tasks differs asked)) rest rest' := by
      generalize y.stack = after at frames ⊢
      cases frames with
      | cons top below => exact ⟨_, _, rfl, top, below⟩
    rw [step_of_stack_cons stack, step_of_stack_cons stack']
    have under : ({ x with stack := rest } : Executor).Alike L differs asked
        { y with stack := rest' } := { alike with stack := below }
    cases top with
    | complete caller replies => exact under.performComplete sound stack replies
    | tell notes notes' => exact under.tell notes notes'
    | conclude => exact under.push (.cons (.complete _ (.wait ..)) .nil)
    | same f =>
      cases f with
      | release b => exact under.setInUse false
      | wake wakers =>
        cases wakers with
        | nil => exact under
        | cons w later => exact ((under.pushSame [.wake later]).happenSame (.woken w)).rouse w
      | tell notes => exact under.tell notes notes
      | poll w =>
        refine under.withTask fun task task' _ tasks => ?_
        rw [tasks.isIdle]
        split
        · exact ((under.happenSame _).setLife .running).pushSame _
        · exact under
      | proceed w => exact under.performProceed sound present shows served stack
      | suspend t => exact (under.happenSame _).setLife .idle
      | complete caller reply => exact under.performComplete sound stack (.same _)
      | receive w item => exact under.withTask fun _ _ _ tasks => under.receive tasks item
      | adopt w s => exact under.performAdopt sound served stack
      | observe t => exact under.withTask fun _ _ _ tasks => under.observe tasks
      | conclude => exact under.push (.cons (.complete _ (.wait ..)) .nil)
      | finish t => exact (under.happenSame _).setLife .ended
      | vacate t => exact under.performVacate present served stack
      | leave t =>
        refine under.withTask fun task task' _ tasks => ?_
        rw [tasks.life]
        split
        · exact (under.modifyTask (fun _ _ _ tasks => tasks.breakOff)
            (.inl fun _ => rfl)).pushSame _
        · exact under
      | drain limit polled => exact under.drain limit polled
      | verdict t =>
        refine under.withTask fun task task' _ tasks => ?_
        rw [tasks.isAlive]
        exact under.respondSame _

/-! ### Requests from outside -/

/-- Before something is asked for, nothing is on its way and nothing was seen. -/
theorem Alike.cleared (alike : x.Alike L differs asked y) (idle : x.stack = []) (asked' : Prop) :
    ({ x with log := [], answer := none } : Executor).Alike L differs asked'
      { y with log := [], answer := none } := by
  refine { alike with seen := .nil, stack := ?_, answer := .none }
  show List.Forall₂ _ x.stack y.stack
  rw [idle, alike.idle idle]
  exact .nil

/-- Whatever is asked for from outside, the answers are alike. -/
theorem Alike.ask (alike : x.Alike L differs asked y) (idle : x.stack = []) (s : Step)
    (fresh : s = .addBus → L.registry x.buses.length .empty .empty)
    (served : ∀ b e, s.errand? = some (b, e) → x.Served L waits y b e) :
    (({ x with log := [], answer := none } : Executor).ask s).Alike L differs (s.sight.Shows waits)
      (({ y with log := [], answer := none } : Executor).ask s) := by
  have cleared := alike.cleared idle (s.sight.Shows waits)
  cases s with
  | act b action =>
    have served (op : Operation) (same : action = .operate op) :
        x.Served L waits y b (.operate op) := by
      subst same
      exact served b _ rfl
    exact cleared.act .outside action served id
  | addBus =>
    have added : ({ x with log := [], answer := none, buses := x.buses ++ [.empty] } :
        Executor).Alike L differs ((Step.sight .addBus).Shows waits)
        { y with log := [], answer := none, buses := y.buses ++ [.empty] } := by
      refine { cleared with buses := fun b => ?_ }
      show Option.Rel _ (x.buses ++ [.empty])[b]? (y.buses ++ [.empty])[b]?
      rw [List.getElem?_append, List.getElem?_append, alike.length_buses]
      split
      · exact alike.buses b
      · rename_i beyond
        by_cases next : b = x.buses.length
        · subst next
          rw [Nat.sub_self]
          exact .some ⟨fresh rfl, rfl⟩
        · obtain ⟨n, more⟩ : ∃ n, b - x.buses.length = n + 1 :=
            Nat.exists_eq_succ_of_ne_zero (by omega)
          rw [more]
          exact .none
    have length := alike.length_buses
    have answered := added.respondSame (.plain (.number x.buses.length))
    rw [Executor.ask, Executor.ask]
    simp only [length]
    exact answered
  | spawn program stopsOnError =>
    have spawned : ({ x with
          log := [], answer := none
          tasks := x.tasks ++ [Task.new program stopsOnError]
          ready := x.ready ++ [x.tasks.length] } : Executor).Alike L
        differs ((Step.sight (.spawn program stopsOnError)).Shows waits)
        { y with
          log := [], answer := none
          tasks := y.tasks ++ [Task.new program stopsOnError]
          ready := x.ready ++ [x.tasks.length] } := by
      refine { cleared with tasks := fun t => ?_, ready := rfl, seen := .nil, stack := ?_ }
      · show Option.Rel _ (x.tasks ++ [_])[t]? (y.tasks ++ [_])[t]?
        rw [List.getElem?_append, List.getElem?_append, alike.length_tasks]
        split
        · exact alike.tasks t
        · cases t - x.tasks.length with
          | zero => exact .some (Likeness.tasks_new program stopsOnError)
          | succ n => exact .none
      · show List.Forall₂ _ x.stack y.stack
        rw [idle, alike.idle idle]
        exact .nil
    have length := alike.length_tasks
    have answered := spawned.respondSame (.plain (.number x.tasks.length))
    rw [Executor.ask, Executor.ask]
    simp only [length, alike.ready]
    exact answered
  | run limit => exact cleared.pushSame _
  | poll w =>
    have idle := cleared.map_getD (t := w.task) (·.isIdle) fun _ _ => (·.isIdle)
    rw [Executor.ask, Executor.ask, idle]
    split
    · exact cleared.pushSame _
    · exact cleared.respondSame _
  | dropInUse b t =>
    rw [Executor.ask, Executor.ask]
    exact (cleared.setInUse true).dropTask t _
  | report => exact cleared.respond (.lines trivial _ _)

end MessageBus.Executor
