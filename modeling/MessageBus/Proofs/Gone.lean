import MessageBus.Proofs.Identities
import MessageBus.Proofs.Termination

/-!
# Waiting at a channel that is gone

A call that waits keeps its request and its place until its task goes on with it, and a stream keeps
its place until it is looked at or given up; nothing else in a run changes what they keep
(`Executor.KeepsUntil`). So whoever waited at a channel when it was closed still waits there when it
goes on next, whatever happened in between.

Then it finds that its channel is gone. A call about that channel fails, a stream comes to its end,
and no channel changes until they have answered (`Executor.EndsIn`). A broadcast is attempted anew
among the channels that are open by then.
-/

namespace MessageBus

namespace Request

variable {ω : Type} {q : Request} {r : Registry ω} {p : Place} {a : Address}

/-- A request about one channel fails when it goes on and its channel is gone. -/
theorem look_of_gone (about : q.address? = some a) (gone : r.find? p.address = none) (k : ω) :
    ∃ notes, q.look r (some p) k =
      .ok { answer := .finished (.error .noSuchChannel), state := r, notes } := by
  have stands := Registry.revisit_eq_of_gone gone k
  cases q with
  | broadcast m => cases about
  | _ =>
    rw [look, advance, stands]
    exact ⟨_, rfl⟩

/-- A broadcast is attempted anew when it goes on and the channel in its way is gone. -/
theorem look_broadcast_of_gone {m : Message} {k : ω} {o : Outcome (Registry ω) ω Turn}
    (gone : r.find? p.address = none) (ran : (broadcast m).pursue r k = .ok o) :
    ∃ notes, (broadcast m).look r (some p) k = .ok { o with notes } := by
  have stands := Registry.revisit_eq_of_gone gone k
  rw [look, advance, stands]
  simp only [Outcome.andThen, onGone, ran]
  exact ⟨_, rfl⟩

end Request

/-- The items that a task has collected so far. -/
def Progress.items : Progress → List Message
  | .collecting items => items
  | _ => []

/-- What an instruction answers that looked for an item and found the stream at its end. -/
def Task.replyAtEnd (task : Task) : Reply :=
  match task.current? with
  | some ⟨_, .collect⟩ => .plain (.messages task.progress.items)
  | _ => .item none

namespace Executor

variable {u : Usage} {x y z : Executor} {t b : Nat} {task : Task} {w : Waker} {f : Frame}
  {e : Errand Waker} {o : Outcome (Registry Waker) Waker Upshot} {change : Task → Task}
  {frames rest : List Frame} {Keeps : Task → Prop}

/-! ### What a task keeps -/

/-- Something holds of a task from `x` on, and it still does in `y`, or the task is over, or there
was a step in between with which it left off. -/
inductive KeepsUntil (u : Usage) (x y : Executor) (t : Nat) (Keeps : Task → Prop)
    (Leaves : Executor → Task → Prop) : Prop where
  | still {task : Task} (found : y.tasks[t]? = some task) (keeps : Keeps task)
  | stopped {task : Task} (found : y.tasks[t]? = some task) (ended : task.life = .ended)
  | left {z : Executor} {task : Task} (before : Relation.ReflTransGen (Next u) x z)
      (found : z.tasks[t]? = some task) (keeps : Keeps task) (leaves : Leaves z task)
      (after : Relation.ReflTransGen (Next u) z.step y)

/-- What a step leaves to a task is what it leaves to the one task that changes. -/
theorem Sound.kept_of_changes {Left : Prop} (sound : x.Sound u) (found : x.tasks[t]? = some task)
    (keeps : Keeps task)
    (quiet : ∀ f rest change frames, x.stack = f :: rest → x.Quiet f t change frames →
      Keeps (change task))
    (sequel : ∀ f rest b e o change frames, x.stack = f :: rest → x.errand? = some (b, e) →
      x.Sequel f b e o t change frames → Left ∨ Keeps (change task)) :
    Left ∨ ∃ task', x.step.tasks[t]? = some task' ∧ Keeps task' := by
  have rests (tasks : x.step.tasks = x.tasks) :
      Left ∨ ∃ task', x.step.tasks[t]? = some task' ∧ Keeps task' :=
    .inr ⟨task, tasks ▸ found, keeps⟩
  have others {t' : Nat} {change : Task → Task} (tasks : x.step.tasks = x.tasks.modify t' change)
      (changed : t' = t → Left ∨ Keeps (change task)) :
      Left ∨ ∃ task', x.step.tasks[t]? = some task' ∧ Keeps task' := by
    have after := getElem?_of_modify tasks t
    rw [found, Option.map_some] at after
    by_cases same : t' = t
    · rw [if_pos same] at after
      exact (changed same).imp_right fun keeps => ⟨_, after, keeps⟩
    · rw [if_neg same] at after
      exact .inr ⟨_, after, keeps⟩
  cases stack : x.stack with
  | nil => exact rests (by rw [step_of_stack_nil stack])
  | cons f rest =>
    cases x.step_unfolds stack with
    | quiet _ quiets leads =>
      refine others leads.tasks fun same => .inr ?_
      subst same
      exact quiet _ _ _ _ stack quiets
    | releases _ leads => exact rests leads.tasks
    | polls _ _ _ leads _ => exact rests leads.tasks
    | readies _ leads _ _ _ => exact rests leads.tasks
    | drains _ _ _ leads _ => exact rests leads.tasks
    | enters errand _ goesOn leads =>
      refine others leads.tasks fun same => ?_
      subst same
      exact sequel _ _ _ _ _ _ _ stack errand goesOn
    | fails errand failed _ _ _ _ => exact absurd failed (sound.carried errand)

/-- What a task keeps in every step that is not its own, it keeps until it takes one. -/
theorem Reachable.keepsUntil (Leaves : Executor → Task → Prop) (reachable : x.Reachable u)
    (found : x.tasks[t]? = some task) (keeps : Keeps task)
    (step : ∀ (z : Executor) task, z.Reachable u → z.tasks[t]? = some task → task.life ≠ .ended →
      Keeps task → Leaves z task ∨ ∃ task', z.step.tasks[t]? = some task' ∧ Keeps task')
    (run : Relation.ReflTransGen (Next u) x y) : KeepsUntil u x y t Keeps Leaves := by
  induction run with
  | refl => exact .still found keeps
  | @tail y z run next ih =>
    have reachable' := reachable.run run
    -- Whoever is over stays so.
    have stopped {task : Task} (found : y.tasks[t]? = some task) (ended : task.life = .ended) :
        KeepsUntil u x z t Keeps Leaves := by
      cases next with
      | step =>
        obtain ⟨task', found', -, stays⟩ := reachable'.sound.kept_step found
        exact .stopped found' (stays ended)
      | ask idle lawful =>
        rcases reachable'.sound.cleared.kept_ask idle lawful found with found' | found'
        · exact .stopped found' ended
        · exact .stopped found' rfl
    cases ih with
    | left before found' keeps' leaves after =>
      exact .left before found' keeps' leaves (after.tail next)
    | stopped found' ended => exact stopped found' ended
    | @still task' found' keeps' =>
      by_cases ended : task'.life = .ended
      · exact stopped found' ended
      cases next with
      | step =>
        rcases step y task' reachable' found' ended keeps' with leaves | ⟨_, found'', keeps''⟩
        · exact .left run found' keeps' leaves .refl
        · exact .still found'' keeps''
      | ask idle lawful =>
        rcases reachable'.sound.cleared.kept_ask idle lawful found' with found'' | found''
        · exact .still found'' keeps'
        · exact .stopped found'' rfl

/-! ### Calls and streams -/

/-- A task is about to go on. -/
def Proceeds (x : Executor) (t : Nat) : Prop :=
  ∃ w rest, x.stack = .proceed w :: rest ∧ w.task = t

theorem Quiet.progress_eq {q : Request} {p : Place} {recorded : Bool} (sound : x.Sound u)
    (stack : x.stack = f :: rest) (quiet : x.Quiet f t change frames)
    (found : x.tasks[t]? = some task) (calling : task.progress = .calling b q (some p) recorded) :
    (change task).progress = task.progress := by
  have holds : task.callPlace ≠ none := by
    rw [Task.callPlace, calling]
    exact Option.some_ne_none _
  -- A reply comes after the place of the call was given up.
  have settled {g : Frame} (stack : x.stack = g :: rest) (own : g.turn? = some t)
      (suits : g.Suits x.buses.length task → task.callPlace = none) : False := by
    obtain ⟨task', below, -, turn⟩ := sound.inTurn stack own
    cases found.symm.trans turn.found
    exact holds (suits turn.suits)
  cases quiet with
  | breaksOff found' running => exact absurd running (sound.life_of_leave stack found')
  | observes found' waiting =>
    cases found.symm.trans found'
    cases calling.symm.trans waiting
  | completes _ => exact (settled stack rfl id).elim
  | collects _ _ => exact (settled stack rfl id).elim
  | yields found' fresh _ =>
    cases found.symm.trans found'
    cases calling.symm.trans fresh
  | _ => rfl

/-- A call that waits is kept by every step but those of its task. -/
theorem Sound.call_kept {q : Request} {p : Place} {recorded : Bool} (sound : x.Sound u)
    (underway : x.Underway) (found : x.tasks[t]? = some task) (alive : task.life ≠ .ended)
    (calling : task.progress = .calling b q (some p) recorded) : x.Proceeds t ∨
      ∃ task', x.step.tasks[t]? = some task' ∧
        task'.progress = .calling b q (some p) recorded := by
  refine sound.kept_of_changes found calling (fun f rest change frames stack quiet => ?_)
    fun f rest b e o change frames stack _ sequel => ?_
  · exact (quiet.progress_eq sound stack found calling).trans calling
  · cases sequel with
    | abandons forgets =>
      cases forgets with
      | stream _ _ _ => exact .inr calling
      | place found' _ =>
        cases found.symm.trans found'
        have ended := underway.vacates t (stack ▸ List.mem_cons_self) task found
        exact absurd ended alive
    | _ => exact .inl ⟨_, rest, stack, rfl⟩

/-- A stream with a place is kept by every step but those that look at it or give the place up. -/
theorem Sound.stream_kept {s : Stream} {p : Place} (sound : x.Sound u) (underway : x.Underway)
    (found : x.tasks[t]? = some task) (alive : task.life ≠ .ended) (stream : task.stream = some s)
    (place : s.place = some p) :
    (x.Proceeds t ∧ task.IsAtStream ∨ x.errand? = some (s.bus, .abandon p)) ∨
      ∃ task', x.step.tasks[t]? = some task' ∧ task'.stream = some s := by
  have holds : task.streamPlace = some (s.bus, p) := by
    rw [Task.streamPlace, stream, Option.bind_some, place, Option.map_some]
  refine sound.kept_of_changes found stream (fun f rest change frames stack quiet => ?_)
    fun f rest b e o change frames stack errand sequel => ?_
  · cases quiet with
    | breaksOff found' running => exact absurd running (sound.life_of_leave stack found')
    | replaces _ free =>
      rw [found, Option.bind_some, holds] at free
      cases free
    | _ => exact stream
  · cases sequel with
    | @looks w _ _ _ _ _ o _ _ _ =>
      refine .inr (Eq.trans ?_ stream)
      rcases o.answer with _ | _ | _ | _ <;> rfl
    | looksAtStream found' atStream _ _ _ =>
      cases found.symm.trans found'
      exact .inl (.inl ⟨⟨_, rest, stack, rfl⟩, atStream⟩)
    | resolves _ _ _ remembers =>
      obtain ⟨remembered, same⟩ := remembers task
      exact .inr (by rw [same]; exact stream)
    | abandons forgets =>
      cases forgets with
      | stream _ found' holds' =>
        cases found.symm.trans found'
        cases holds.symm.trans holds'
        exact .inl (.inr errand)
      | place found' _ =>
        cases found.symm.trans found'
        have ended := underway.vacates t (stack ▸ List.mem_cons_self) task found
        exact absurd ended alive
    | _ => exact .inr stream

/-! ### What comes of it -/

/-- In `n` steps a task is done with its instruction, and meanwhile no channel changes and no waker
is called. -/
structure EndsIn (x : Executor) (n : Nat) (w : Waker) (position : Nat) (reply : Reply) : Prop where
  completed : ∃ log, (settle n x).log = .completed w.task position reply :: log
  registry : ∀ m ≤ n, ∀ b, (settle m x).registry b = x.registry b
  calls : wokenIn (settle n x).log = wokenIn x.log

variable {n position : Nat} {reply : Reply} {notes : List Note}

theorem endsIn_of_complete (stack : x.stack = .complete (.task w) reply :: rest)
    (found : x.tasks[w.task]? = some task) : x.EndsIn 1 w task.position reply := by
  have step : settle 1 x = x.step := by
    rw [settle_succ, stack]
    rfl
  have same : x.step.buses = x.buses ∧
      x.step.log = .completed w.task task.position reply :: x.log := by
    rw [step_of_stack_cons stack, perform, withTask_of_found (x := { x with stack := rest }) found]
    exact ⟨rfl, rfl⟩
  refine ⟨⟨x.log, step ▸ same.2⟩, fun m le b => ?_, ?_⟩
  · obtain rfl | rfl := Nat.le_one_iff_eq_zero_or_eq_one.1 le
    · rfl
    · rw [step, registry_of_buses same.1]
  · rw [step, same.2]
    rfl

theorem EndsIn.after_step (ends : x.step.EndsIn n w position reply) (stack : x.stack = f :: rest)
    (registry : ∀ b, x.step.registry b = x.registry b)
    (calls : wokenIn x.step.log = wokenIn x.log) : x.EndsIn (n + 1) w position reply := by
  have further (m : Nat) : settle (m + 1) x = settle m x.step := by
    rw [settle_succ, stack]
    rfl
  refine ⟨(further n).symm ▸ ends.completed, fun m le b => ?_, ?_⟩
  · cases m with
    | zero => rfl
    | succ m => rw [further m, ends.registry m (Nat.le_of_succ_le_succ le) b, registry b]
  · rw [further n, ends.calls, calls]

/-- An access that wakes nobody comes to the frame below it. -/
theorem endsIn_of_access (stack : x.stack = .release b :: .wake [] :: .tell notes :: rest)
    (ends : ∀ y : Executor, y.stack = rest → y.tasks = x.tasks → y.EndsIn n w position reply) :
    x.EndsIn (n + 3) w position reply := by
  have released : x.step.stack = .wake [] :: .tell notes :: rest ∧ x.step.tasks = x.tasks ∧
      x.step.buses = x.buses.modify b ({ · with inUse := false }) ∧ x.step.log = x.log := by
    rw [step_of_stack_cons stack]
    exact ⟨rfl, rfl, rfl, rfl⟩
  obtain ⟨stack₁, tasks₁, buses₁, log₁⟩ := released
  have passed : x.step.step.stack = .tell notes :: rest ∧ x.step.step.tasks = x.step.tasks ∧
      x.step.step.buses = x.step.buses ∧ x.step.step.log = x.step.log := by
    rw [step_of_stack_cons stack₁]
    exact ⟨rfl, rfl, rfl, rfl⟩
  obtain ⟨stack₂, tasks₂, buses₂, log₂⟩ := passed
  let taken : Executor := { x.step.step with stack := rest }
  have told : x.step.step.step = taken.tell notes := step_of_stack_cons stack₂
  obtain ⟨buses₃, tasks₃, stack₃⟩ := taken.tell_same notes
  have ends₃ := ends (taken.tell notes) stack₃ (tasks₃.trans (tasks₂.trans tasks₁))
  rw [← told] at ends₃
  refine ((ends₃.after_step stack₂ (fun b => ?_) ?_).after_step stack₁ (fun b => ?_) ?_).after_step
    stack (fun b' => ?_) ?_
  · rw [told, registry_of_buses buses₃]
    rfl
  · rw [told, (taken.wokenIn_tell notes).1]
  · exact registry_of_buses buses₂ b
  · rw [log₂]
  · exact registry_modify buses₁ (fun _ => rfl) b'
  · rw [log₁]

theorem registry_of_set_registry {inUse : Bool} (inside : b < x.buses.length)
    (buses : y.buses = x.buses.set b ⟨x.registry b, inUse⟩) (b' : Nat) :
    y.registry b' = x.registry b' := by
  by_cases same : b' = b
  · rw [same, registry_set_self inside buses]
  · exact registry_set_ne same buses

/-- What a call comes to whose channel is gone, when its task goes on. -/
inductive FindsGone (x : Executor) (w : Waker) (task : Task) (b : Nat) (rest : List Frame) :
    Request → Prop where
  | fails {q : Request} {a : Address} (about : q.address? = some a)
      (ends : x.EndsIn 5 w task.position (.refused .noSuchChannel)) : FindsGone x w task b rest q
  /-- A broadcast fails only if no channel is open. -/
  | retries {m : Message} {o : Outcome (Registry Waker) Waker Turn}
      (ran : (Request.broadcast m).pursue (x.registry b) w = .ok o)
      (pursued : (Request.broadcast m).Pursued (x.registry b) w o.answer o.state)
      (fails : ∀ e, o.answer = .finished (.error e) → (x.registry b).channels = [])
      (registry : x.step.registry b = o.state)
      (stack : x.step.stack =
        .release b :: .wake o.woken :: .tell o.afterwards :: o.answer.frame w :: rest) :
    FindsGone x w task b rest (.broadcast m)

theorem Sound.findsGone {q : Request} {p : Place} {recorded : Bool} (sound : x.Sound u)
    (stack : x.stack = .proceed w :: rest) (found : x.tasks[w.task]? = some task)
    (calling : task.progress = .calling b q (some p) recorded)
    (gone : (x.registry b).find? p.address = none) : x.FindsGone w task b rest q := by
  obtain ⟨o, recorded', ran, inside, -, leads⟩ :=
    sound.leads_of_look stack found (.calling calling)
  cases about : q.address? with
  | some a =>
    obtain ⟨notes, fails⟩ := Request.look_of_gone about gone w
    cases ran.symm.trans fails
    refine .fails about (.after_step (endsIn_of_access leads.stack fun y stack' tasks => ?_) stack
      (registry_of_set_registry inside leads.buses) leads.calls)
    have after : y.tasks[w.task]? = some { task with progress := .fresh } := by
      rw [tasks, leads.tasks, List.getElem?_modify_eq, found]
      rfl
    have ends := endsIn_of_complete stack' after
    exact ends
  | none =>
    cases q with
    | broadcast m =>
      obtain ⟨o', ran', pursued⟩ := Request.pursue_pursued (sound.balanced b) (.broadcast m) w
      obtain ⟨notes, retries⟩ := Request.look_broadcast_of_gone gone ran'
      cases ran.symm.trans retries
      refine .retries ran' pursued (fun e fails => ?_) (registry_set_self inside leads.buses)
        leads.stack
      generalize o'.answer = turn, o'.state = r' at pursued fails
      cases pursued with
      | granted _ => cases fails
      | groundless none => exact none
      | parked _ _ => cases fails
    | _ => cases about

theorem Sound.leads_of_streamLook {s : Stream} {id : ChannelId} (sound : x.Sound u)
    (stack : x.stack = .proceed w :: rest) (found : x.tasks[w.task]? = some task)
    (atStream : task.IsAtStream) (stream : task.stream = some s) (known : s.id = some id) :
    ∃ o, (Request.recv ⟨s.handle, id⟩).look (x.registry s.bus) s.place w = .ok o ∧
      s.bus < x.buses.length ∧
      x.Leads x.step (x.buses.set s.bus ⟨o.state, true⟩)
        (x.tasks.modify w.task (o.answer.leavesStream s))
        (.release s.bus :: .wake o.woken :: .tell o.afterwards ::
          o.answer.streamFrame w (task.ifPending w) :: rest) := by
  obtain ⟨b, e, look, errand⟩ :
      ∃ b e, e = .look (.recv ⟨s.handle, id⟩) s.place w ∧ x.errand? = some (b, e) :=
    ⟨s.bus, _, rfl, errand?_of_atStream stack found atStream stream known⟩
  obtain ⟨_, _, _, _, carried, sequel, leads⟩ := sound.enters stack errand
  cases sequel with
  | looks found' pursues _ =>
    cases found.symm.trans found'
    exact absurd atStream pursues.not_isAtStream
  | looksAtStream found' _ stream' known' ran =>
    cases found.symm.trans found'
    cases stream.symm.trans stream'
    cases known.symm.trans known'
    exact ⟨_, ran, inside_of_carried carried, leads⟩
  | _ => cases look

/-- The end of a stream becomes the reply of the instruction that looked for an item. -/
theorem endsIn_of_receive (stack : x.stack = .receive w none :: rest)
    (found : x.tasks[w.task]? = some task) :
    x.EndsIn 2 w task.position task.replyAtEnd := by
  have step : x.step = ({ x with stack := rest } : Executor).receive w task none := by
    rw [step_of_stack_cons stack, perform, withTask_of_found (x := { x with stack := rest }) found]
  have after : x.step = { x with stack := .complete (.task w) task.replyAtEnd :: rest } := by
    rw [step, receive, Task.replyAtEnd]
    rcases task.current? with _ | ⟨bus, deed⟩
    · rfl
    · cases deed with
      | collect => cases task.progress <;> rfl
      | _ => rfl
  have ends : x.step.EndsIn 1 w task.position task.replyAtEnd :=
    endsIn_of_complete (congrArg Executor.stack after) (after ▸ found)
  refine ends.after_step stack (fun b => ?_) ?_
  · rw [after]
    rfl
  · rw [after]

/-- A stream whose channel is gone comes to its end when it is looked at. -/
theorem Sound.stream_ends {s : Stream} {p : Place} (sound : x.Sound u) (arises : x.Arises)
    (stack : x.stack = .proceed w :: rest) (found : x.tasks[w.task]? = some task)
    (atStream : task.IsAtStream) (stream : task.stream = some s) (place : s.place = some p)
    (gone : (x.registry s.bus).find? p.address = none) :
    x.EndsIn 6 w task.position task.replyAtEnd ∧
      x.step.tasks[w.task]? =
        some { task with stream := some { s with id := none, place := none } } := by
  obtain ⟨id, known, -⟩ := (arises.keepsTargets.faithful _ task found).stream s p stream place
  obtain ⟨o, ran, inside, leads⟩ := sound.leads_of_streamLook stack found atStream stream known
  obtain ⟨notes, fails⟩ := Request.look_of_gone (q := .recv ⟨s.handle, id⟩) rfl gone w
  rw [place] at ran
  cases ran.symm.trans fails
  have after : x.step.tasks[w.task]? =
      some { task with stream := some { s with id := none, place := none } } := by
    rw [leads.tasks, List.getElem?_modify_eq, found]
    rfl
  refine ⟨.after_step (endsIn_of_access leads.stack fun y stack' tasks => ?_) stack
    (registry_of_set_registry inside leads.buses) leads.calls, after⟩
  have ends := endsIn_of_receive stack' (tasks ▸ after)
  exact ends

end Executor

end MessageBus
