import MessageBus.Proofs.Accounting.Counters
import MessageBus.Proofs.Accesses
import MessageBus.Proofs.FreeSlots
import MessageBus.Proofs.Unfolding
import MessageBus.Telemetry.Report
import Mathlib.Data.List.Forall2

/-!
# Executors that differ in free slots

Two executors resemble each other if the one has more free slots at the end of its buses, and all
else is the same but for what shows of them: the texts that describe a bus, and what telemetry says
of the events before (`Executor.Resembles`). Replies that hold no text are the same, and so are
tasks and their places, the wakers that are called, and what observers are told.

There is one lemma for each way in which an executor is changed.
-/

namespace MessageBus

/-! ### What shows of free slots -/

/-- Texts that are the same, but for how many slots they show. -/
inductive SameText : String → String → Prop where
  | same (s : String) : SameText s s
  | summary (r : Registry Waker) (n : Nat) (inUse : Bool) :
    SameText (r.summary inUse) ((r.padded n).summary inUse)
  | dump (r : Registry Waker) (n : Nat) : SameText r.describe (r.padded n).describe
  | wait {bus bus' : String} (same : SameText bus bus') (a : Address) (side : Side)
      (state : WaitState) :
    SameText (describeWait bus a side state) (describeWait bus' a side state)

/-- Replies that are the same, but for such texts, and for the events in a report. -/
inductive Reply.Resembles : Reply → Reply → Prop where
  | same (reply : Reply) : Resembles reply reply
  | text {s s' : String} (same : SameText s s') : Resembles (.text s) (.text s')
  | wait {before before' : String} {after after' : List String} (first : SameText before before')
      (later : List.Forall₂ SameText after after') (result again : Except BusError Unit) :
    Resembles (.wait before after result again) (.wait before' after' result again)
  | report {t t' : Telemetry} (same : t'.counters = t.counters) :
    Resembles (.lines t.report) (.lines t'.report)

inductive Event.Resembles : Event → Event → Prop where
  | same (e : Event) : Resembles e e
  | completed (t i : Nat) {reply reply' : Reply} (replies : reply.Resembles reply') :
    Resembles (.completed t i reply) (.completed t i reply')

inductive Frame.Resembles : Frame → Frame → Prop where
  | same (f : Frame) : Resembles f f
  | complete (caller : Caller) {reply reply' : Reply} (replies : reply.Resembles reply') :
    Resembles (.complete caller reply) (.complete caller reply')
  | conclude (w : Waker) {before before' : String} {after after' : List String}
      (first : SameText before before') (later : List.Forall₂ SameText after after') (b : Nat)
      (a : Address) (side : Side) (result : Except BusError Unit) :
    Resembles (.conclude w before after b a side result)
      (.conclude w before' after' b a side result)

inductive Progress.Resembles : Progress → Progress → Prop where
  | same (progress : Progress) : Resembles progress progress
  | waiting (b : Nat) (p : Place) {before before' : String} {after after' : List String}
      (first : SameText before before') (later : List.Forall₂ SameText after after') :
    Resembles (.waiting b p before after) (.waiting b p before' after')

/-- Tasks that are the same, but for the texts that they keep. -/
inductive Task.Resembles (task : Task) : Task → Prop where
  | intro {progress : Progress} (progresses : task.progress.Resembles progress) :
    Resembles task { task with progress }

/-- A bus, and the same one with more free slots. -/
inductive SharedBus.Resembles (bus : SharedBus) : SharedBus → Prop where
  | intro (n : Nat) : Resembles bus { bus with registry := bus.registry.padded n }

/-- Two executors of which the second may have more free slots on its buses. -/
structure Executor.Resembles (x y : Executor) : Prop where
  inline : y.inline = x.inline
  buses : ∀ b : Nat, Option.Rel SharedBus.Resembles x.buses[b]? y.buses[b]?
  tasks : ∀ t : Nat, Option.Rel Task.Resembles x.tasks[t]? y.tasks[t]?
  ready : y.ready = x.ready
  slot : y.lastError = x.lastError
  counters : y.telemetry.counters = x.telemetry.counters
  log : List.Forall₂ Event.Resembles x.log y.log
  stack : List.Forall₂ Frame.Resembles x.stack y.stack
  answer : Option.Rel Reply.Resembles x.answer y.answer

/-! ### Parts -/

theorem Reply.Resembles.afterReply {reply reply' : Reply} (replies : reply.Resembles reply')
    (last : ErrorCode) : last.afterReply reply' = last.afterReply reply := by
  cases replies <;> rfl

theorem Frame.Resembles.clearsAway {f f' : Frame} (frames : f.Resembles f') :
    f'.clearsAway = f.clearsAway := by
  cases frames <;> rfl

theorem SharedBus.Resembles.refl (bus : SharedBus) : bus.Resembles bus := by
  have same := @SharedBus.Resembles.intro bus 0
  rwa [Registry.padded_zero] at same

namespace Task

variable {task task' : Task}

theorem Resembles.refl (task : Task) : task.Resembles task := .intro (.same _)

/-- Whatever the texts are, a task goes on to the same instruction. -/
theorem Resembles.advance (tasks : task.Resembles task') {reply reply' : Reply}
    (replies : reply.Resembles reply') : (task.advance reply).Resembles (task'.advance reply') := by
  obtain ⟨_, stops, _, _, _, _, _⟩ := task
  cases tasks
  cases replies <;> cases stops <;> exact .refl _

theorem Resembles.giveUpPlace (tasks : task.Resembles task') :
    task.giveUpPlace.Resembles task'.giveUpPlace := by
  obtain ⟨_, _, _, progress, _, _, _⟩ := task
  cases tasks with
  | intro progresses =>
    cases progresses with
    | same => exact .refl _
    | waiting b p before after => exact .refl _

theorem Resembles.places (tasks : task.Resembles task') : task'.places = task.places := by
  obtain ⟨_, _, _, progress, _, _, _⟩ := task
  cases tasks with
  | intro progresses => cases progresses <;> rfl

end Task

/-! ### Changes -/

namespace Executor

variable {x y : Executor} {t b : Nat} {α : Type}

theorem Resembles.found (same : x.Resembles y) {task : Task} (found : x.tasks[t]? = some task) :
    ∃ task', y.tasks[t]? = some task' ∧ task.Resembles task' := by
  have tasks := same.tasks t
  rw [found] at tasks
  generalize y.tasks[t]? = there at tasks ⊢
  cases tasks with
  | some tasks => exact ⟨_, rfl, tasks⟩

theorem Resembles.missing (same : x.Resembles y) (missing : x.tasks[t]? = none) :
    y.tasks[t]? = none := by
  have tasks := same.tasks t
  rw [missing] at tasks
  generalize y.tasks[t]? = there at tasks ⊢
  cases tasks
  rfl

/-- What is asked of a task is asked of the one that resembles it. -/
theorem Resembles.map_tasks (same : x.Resembles y) (look : Task → α)
    (blind : ∀ task progress, look { task with progress } = look task) (t : Nat) :
    (y.tasks[t]?).map look = (x.tasks[t]?).map look := by
  cases found : x.tasks[t]? with
  | none => rw [same.missing found]
  | some task =>
    obtain ⟨_, found', ⟨_⟩⟩ := same.found found
    rw [found', Option.map_some, Option.map_some, blind]

theorem Resembles.push (same : x.Resembles y) {frames frames' : List Frame}
    (more : List.Forall₂ Frame.Resembles frames frames') :
    (x.push frames).Resembles (y.push frames') :=
  { same with stack := List.rel_append more same.stack }

theorem Resembles.pushSame (same : x.Resembles y) (frames : List Frame) :
    (x.push frames).Resembles (y.push frames) :=
  same.push (List.forall₂_same.2 fun f _ => .same f)

theorem Resembles.happen (same : x.Resembles y) {e e' : Event} (events : e.Resembles e') :
    (x.happen e).Resembles (y.happen e') :=
  { same with log := .cons events same.log }

theorem Resembles.happenSame (same : x.Resembles y) (e : Event) :
    (x.happen e).Resembles (y.happen e) := same.happen (.same e)

/-- The same wakers were called, in the same order. -/
theorem Resembles.calls (same : x.Resembles y) : wokenIn y.log = wokenIn x.log := by
  have log := same.log
  generalize x.log = before at log ⊢
  generalize y.log = after at log ⊢
  induction log with
  | nil => rfl
  | @cons e e' before after events _ ih =>
    have one : wokenIn [e'] = wokenIn [e] := by cases events <;> rfl
    calc wokenIn (e' :: after)
        = wokenIn [e'] ++ wokenIn after := List.filterMap_append (l := [e'])
      _ = wokenIn [e] ++ wokenIn before := by rw [one, ih]
      _ = wokenIn (e :: before) := (List.filterMap_append (l := [e])).symm

theorem Resembles.respond (same : x.Resembles y) {reply reply' : Reply}
    (replies : reply.Resembles reply') : (x.respond reply).Resembles (y.respond reply') := by
  refine { same with answer := ?_ }
  have answer := same.answer
  show Option.Rel _ (x.answer.orElse _) (y.answer.orElse _)
  generalize x.answer = before at answer ⊢
  generalize y.answer = after at answer ⊢
  cases answer with
  | none => exact .some replies
  | some before => exact .some before

theorem Resembles.respondSame (same : x.Resembles y) (reply : Reply) :
    (x.respond reply).Resembles (y.respond reply) := same.respond (.same reply)

theorem Resembles.record (same : x.Resembles y) {reply reply' : Reply}
    (replies : reply.Resembles reply') : (x.record reply).Resembles (y.record reply') := by
  refine { same with slot := ?_ }
  show y.lastError.afterReply reply' = x.lastError.afterReply reply
  rw [same.slot, replies.afterReply]

theorem Resembles.setSlot (same : x.Resembles y) (code : ErrorCode) :
    ({ x with lastError := code } : Executor).Resembles { y with lastError := code } :=
  { same with slot := rfl }

theorem Resembles.setReady (same : x.Resembles y) (ready : List Nat) :
    ({ x with ready } : Executor).Resembles { y with ready } :=
  { same with ready := rfl }

/-- Observers are told the same, and counters stay the same. -/
theorem Resembles.tell (same : x.Resembles y) (notes : List Note) :
    (x.tell notes).Resembles (y.tell notes) := by
  induction notes generalizing x y with
  | nil => exact same
  | cons n notes ih =>
    refine ih (x := x.tellOne n) (y := y.tellOne n) ?_
    have counters : (y.telemetry.note n).counters = (x.telemetry.note n).counters := by
      have kept := same.counters
      cases n <;> first | exact kept | exact congrArg (Telemetry.bump _) kept
    have noted : ({ x with telemetry := x.telemetry.note n } : Executor).Resembles
      { y with telemetry := y.telemetry.note n } := { same with counters }
    rw [tellOne, tellOne]
    cases n.trace with
    | none => exact noted
    | some trace => exact noted.happenSame _

theorem Resembles.fail (same : x.Resembles y) (fault : Fault) :
    (x.fail fault).Resembles (y.fail fault) := by
  refine Resembles.respondSame (x := { x with stack := x.stack.filter (·.clearsAway) })
    (y := { y with stack := y.stack.filter (·.clearsAway) }) { same with stack := ?_ } _
  exact List.rel_filter (fun _ _ frames => by simp only [frames.clearsAway]) same.stack

theorem Resembles.modifyTask (same : x.Resembles y) {change change' : Task → Task}
    (tasks : ∀ task task', task.Resembles task' → (change task).Resembles (change' task')) :
    (x.modifyTask t change).Resembles (y.modifyTask t change') := by
  refine { same with tasks := fun t' => ?_ }
  have there := same.tasks t'
  show Option.Rel _ (x.tasks.modify t change)[t']? (y.tasks.modify t change')[t']?
  rw [List.getElem?_modify, List.getElem?_modify]
  generalize x.tasks[t']? = before at there ⊢
  generalize y.tasks[t']? = after at there ⊢
  cases there with
  | none => exact .none
  | some there =>
    refine .some ?_
    split
    · exact tasks _ _ there
    · exact there

/-- A change that leaves alone what tasks keep of their instructions. -/
theorem Resembles.modifyBeside (same : x.Resembles y) (change : Task → Task)
    (beside : ∀ task progress, change { task with progress } = { change task with progress })
    (kept : ∀ task, (change task).progress = task.progress) :
    (x.modifyTask t change).Resembles (y.modifyTask t change) := by
  refine same.modifyTask fun task _ tasks => ?_
  cases tasks with
  | @intro progress progresses =>
    rw [beside task progress]
    exact .intro (kept task ▸ progresses)

theorem Resembles.setStream (same : x.Resembles y) (t : Nat) (stream : Option Stream) :
    (x.modifyTask t ({ · with stream })).Resembles (y.modifyTask t ({ · with stream })) :=
  same.modifyBeside ({ · with stream }) (fun _ _ => rfl) fun _ => rfl

theorem Resembles.setLife (same : x.Resembles y) (t : Nat) (life : Life) :
    (x.modifyTask t ({ · with life })).Resembles (y.modifyTask t ({ · with life })) :=
  same.modifyBeside ({ · with life }) (fun _ _ => rfl) fun _ => rfl

theorem Resembles.remember (same : x.Resembles y) (t : Nat) (remembered : Option ChannelId) :
    (x.modifyTask t ({ · with remembered })).Resembles (y.modifyTask t ({ · with remembered })) :=
  same.modifyBeside ({ · with remembered }) (fun _ _ => rfl) fun _ => rfl

theorem Resembles.keep (same : x.Resembles y) {progress progress' : Progress}
    (progresses : progress.Resembles progress') :
    (x.keep t progress).Resembles (y.keep t progress') := by
  refine same.modifyTask fun task _ tasks => ?_
  cases tasks
  exact @Task.Resembles.intro { task with progress } _ progresses

theorem Resembles.keepSame (same : x.Resembles y) (progress : Progress) :
    (x.keep t progress).Resembles (y.keep t progress) := same.keep (.same progress)

theorem Resembles.withTask (same : x.Resembles y) {go go' : Task → Executor}
    (does : ∀ task task', task.Resembles task' → (go task).Resembles (go' task')) :
    (x.withTask t go).Resembles (y.withTask t go') := by
  rw [Executor.withTask, Executor.withTask]
  cases found : x.tasks[t]? with
  | none =>
    rw [same.missing found]
    exact same
  | some task =>
    obtain ⟨task', found', tasks⟩ := same.found found
    rw [found']
    exact does task task' tasks

/-! ### Buses -/

theorem Resembles.registry (same : x.Resembles y) (b : Nat) :
    ∃ n, y.registry b = (x.registry b).padded n := by
  have buses := same.buses b
  rw [Executor.registry, Executor.registry]
  generalize x.buses[b]? = before at buses ⊢
  generalize y.buses[b]? = after at buses ⊢
  cases buses with
  | none => exact ⟨0, rfl⟩
  | some buses =>
    obtain ⟨n⟩ := buses
    exact ⟨n, rfl⟩

theorem Resembles.summary (same : x.Resembles y) (b : Nat) :
    SameText (x.summary b) (y.summary b) := by
  have buses := same.buses b
  rw [Executor.summary, Executor.summary]
  generalize x.buses[b]? = before at buses ⊢
  generalize y.buses[b]? = after at buses ⊢
  cases buses with
  | none => exact .same _
  | some buses =>
    obtain ⟨n⟩ := buses
    exact .summary _ n _

theorem Resembles.dump (same : x.Resembles y) (b : Nat) : SameText (x.dump b) (y.dump b) := by
  have buses := same.buses b
  rw [Executor.dump, Executor.dump]
  generalize x.buses[b]? = before at buses ⊢
  generalize y.buses[b]? = after at buses ⊢
  cases buses with
  | none => exact .same _
  | some buses =>
    obtain ⟨n⟩ := buses
    exact .dump _ n

theorem Resembles.isInUse (same : x.Resembles y) (b : Nat) : y.isInUse b = x.isInUse b := by
  have buses := same.buses b
  rw [Executor.isInUse, Executor.isInUse]
  generalize x.buses[b]? = before at buses ⊢
  generalize y.buses[b]? = after at buses ⊢
  cases buses with
  | none => rfl
  | some buses =>
    obtain ⟨n⟩ := buses
    rfl

theorem Resembles.hasFailed (same : x.Resembles y) : y.hasFailed = x.hasFailed := by
  have answer := same.answer
  rw [Executor.hasFailed, Executor.hasFailed]
  generalize x.answer = before at answer ⊢
  generalize y.answer = after at answer ⊢
  cases answer with
  | none => rfl
  | some replies => cases replies <;> rfl

theorem Resembles.setInUse (same : x.Resembles y) (inUse : Bool) :
    ({ x with buses := x.buses.modify b ({ · with inUse }) } : Executor).Resembles
      { y with buses := y.buses.modify b ({ · with inUse }) } := by
  refine { same with buses := fun b' => ?_ }
  have buses := same.buses b'
  show Option.Rel _ (x.buses.modify b _)[b']? (y.buses.modify b _)[b']?
  rw [List.getElem?_modify, List.getElem?_modify]
  generalize x.buses[b']? = before at buses ⊢
  generalize y.buses[b']? = after at buses ⊢
  cases buses with
  | none => split <;> exact .none
  | @some bus _ buses =>
    obtain ⟨n⟩ := buses
    refine .some ?_
    split
    · exact @SharedBus.Resembles.intro { bus with inUse } n
    · exact .intro n

theorem Resembles.setBus (same : x.Resembles y) (b : Nat) (bus : SharedBus) (n : Nat) :
    ({ x with buses := x.buses.set b bus } : Executor).Resembles
      { y with buses := y.buses.set b { bus with registry := bus.registry.padded n } } := by
  refine { same with buses := fun b' => ?_ }
  show Option.Rel _ (x.buses.set b _)[b']? (y.buses.set b _)[b']?
  rw [List.getElem?_set, List.getElem?_set, length_eq_of_rel same.buses]
  split
  · split
    · exact .some (.intro n)
    · exact .none
  · exact same.buses b'

/-- Both enter a bus and do there what does not see free slots, and go on alike. -/
theorem Resembles.access (same : x.Resembles y)
    {act : Registry Waker → Except Fault (Outcome (Registry Waker) Waker α)}
    (blind : Registry.IsBlind act) {next next' : α → Executor → Executor}
    (goesOn : ∀ a z z', z.Resembles z' → (next a z).Resembles (next' a z')) :
    (x.access b act next).Resembles (y.access b act next') := by
  have buses := same.buses b
  rw [Executor.access, Executor.access]
  cases there : x.buses[b]? with
  | none =>
    rw [there] at buses
    have there' : y.buses[b]? = none := by
      generalize y.buses[b]? = after at buses ⊢
      cases buses
      rfl
    rw [there']
    exact same.fail _
  | some bus =>
    rw [there] at buses
    obtain ⟨n, there'⟩ :
        ∃ n, y.buses[b]? = some { bus with registry := bus.registry.padded n } := by
      generalize y.buses[b]? = after at buses ⊢
      cases buses with
      | some buses =>
        obtain ⟨n⟩ := buses
        exact ⟨n, rfl⟩
    obtain ⟨n', done⟩ := blind bus.registry n
    simp only [there', done]
    split
    · exact same.fail _
    · cases act bus.registry with
      | error fault => exact same.fail fault
      | ok o =>
        exact (goesOn _ _ _ ((same.setBus b ⟨o.state, true⟩ n').tell o.notes)).pushSame _

end Executor

end MessageBus
