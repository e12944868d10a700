import MessageBus.Proofs.Targets

/-!
# Identities are not reused

The identity of a channel is given out once. While the channel is open it is found under the handle
where it was opened, and afterwards it is found nowhere, whatever is opened later
(`Registry.Precedes`). So a call and a stream, which keep the identity that they resolved when they
began, never come upon another channel: as long as they go on, they wait at that channel, and no
step of theirs changes any other (`Executor.HasSafeIdentities`).

That a call goes on is said of a run: it is begun in one step, where its channel is found under the
handle, and ever since its task has been in a call (`Executor.InCall`). A stream is made in one step
and adopted in a later one, and then the task gets no other (`Executor.InStream`).
-/

namespace MessageBus

namespace Registry

variable {ω : Type} {r r' r'' : Registry ω} {ts : List Transfer} {a a' : Address}
  {c c' : Channel ω}

/-- What is open in a later registry was open before, or its identity has been given out since. -/
structure Precedes (r r' : Registry ω) : Prop where
  nextId_le : r.nextId ≤ r'.nextId
  old : ∀ a c', r'.find? a = some c' → (∃ c, r.find? a = some c) ∨ r.nextId ≤ a.id.number

theorem Precedes.refl (r : Registry ω) : r.Precedes r :=
  ⟨Nat.le_refl _, fun _ c found => .inl ⟨c, found⟩⟩

theorem Precedes.trans (first : r.Precedes r') (second : r'.Precedes r'') : r.Precedes r'' where
  nextId_le := Nat.le_trans first.nextId_le second.nextId_le
  old a c'' found := by
    rcases second.old a c'' found with ⟨c', before⟩ | new
    · exact first.old a c' before
    · exact .inr (Nat.le_trans first.nextId_le new)

theorem Flows.precedes (flows : r.Flows ts r') : r.Precedes r' where
  nextId_le := flows.nextId_le
  old _ _ found := (flows.find? found).imp_right fun new =>
    Nat.le_of_eq (congrArg ChannelId.number new.1).symm

/-- An identity that is still open is found where it was found before. -/
theorem Precedes.address_eq (precedes : r.Precedes r') (ident : r.Identified)
    (found : r.find? a = some c) (found' : r'.find? a' = some c') (same : a'.id = a.id) :
    a' = a := by
  rcases precedes.old a' c' found' with ⟨d, before⟩ | new
  · exact ident.distinct a' a d c before found same
  · rw [same] at new
    exact absurd (ident.issued a c found) (Nat.not_lt_of_le new)

/-- An identity that was open once and is not any more is found nowhere ever again. -/
theorem Precedes.find?_eq_none (first : r.Precedes r') (second : r'.Precedes r'')
    (ident : r.Identified) (found : r.find? a = some c) (gone : r'.find? a = none)
    (same : a'.id = a.id) : r''.find? a' = none := by
  cases after : r''.find? a' with
  | none => rfl
  | some c'' =>
    rcases second.old a' c'' after with ⟨c', between⟩ | new
    · rw [first.address_eq ident found between same, gone] at between
      cases between
    · have issued := Nat.lt_of_lt_of_le (ident.issued a c found) first.nextId_le
      rw [same] at new
      exact absurd issued (Nat.not_lt_of_le new)

end Registry

/-- Closing the channel under a handle, or deleting all, ends it. -/
theorem Operation.find?_of_ends {ω : Type} {op : Operation} {r : Registry ω} {a : Address}
    (ends : op = .close a.handle ∨ op = .delete) {o : Outcome (Registry ω) ω Reply}
    (ran : op.apply r = .ok o) : o.state.find? a = none := by
  rcases ends with rfl | rfl
  · cases ran
    exact r.find?_close_eq_none a
  · cases ran
    rfl

namespace Executor

variable {x y : Executor} {t b : Nat} {a : Address} {task task' : Task} {w : Waker} {s : Stream}
  {e : Errand Waker} {rest : List Frame}

/-- The registries of a run precede each other. -/
theorem Arises.precedes (arises : x.Arises) (run : Relation.ReflTransGen Follows x y) (b : Nat) :
    y.Arises ∧ (x.registry b).Precedes (y.registry b) := by
  induction run with
  | refl => exact ⟨arises, .refl _⟩
  | tail _ follows ih =>
    obtain ⟨ts, flows⟩ := follows.flows (ih.1.identified b)
    exact ⟨ih.1.follows follows, ih.2.trans flows.precedes⟩

/-! ### Runs with a call or a stream -/

/-- A task is about to begin a call on a channel: it is open under the handle that the call names,
or the task resolved it before. -/
def BeginsCall (x : Executor) (t b : Nat) (a : Address) : Prop :=
  ∃ w rest task, x.stack = .proceed w :: rest ∧ w.task = t ∧ x.tasks[t]? = some task ∧
    task.progress = .fresh ∧
    ((∃ c h, task.current? = some ⟨b, .call c⟩ ∧ c.handle? = some h ∧
        (x.registry b).resolve h = .ok a) ∨
      task.current? = some ⟨b, .recvFrom a.handle⟩ ∧ task.remembered = some a.id)

/-- A task is in a call about some channel. -/
def IsCalling (x : Executor) (t : Nat) : Prop :=
  ∃ task, x.tasks[t]? = some task ∧ task.callTarget? ≠ none

/-- A task is in the call that it began on this channel. -/
inductive InCall (t b : Nat) (a : Address) : Executor → Prop where
  | begun {x : Executor} (begins : x.BeginsCall t b a) (calling : x.step.IsCalling t) :
    InCall t b a x.step
  | goesOn {x y : Executor} (inCall : InCall t b a x) (follows : x.Follows y)
      (calling : y.IsCalling t) : InCall t b a y

/-- A stream was made, and its task has yet to adopt it. -/
inductive Opened (w : Waker) (s : Stream) : Executor → Prop where
  | made {x : Executor} (opens : x.Opens w s) : Opened w s x.step
  | goesOn {x y : Executor} (opened : Opened w s x) (next : .adopt w s ∈ x.stack)
      (follows : x.Follows y) : Opened w s y

/-- A task has a stream about some channel. -/
def IsStreaming (x : Executor) (t : Nat) : Prop :=
  ∃ task, x.tasks[t]? = some task ∧ task.streamTarget? ≠ none

/-- A task adopts a stream that was made for it. -/
def Adopts (x : Executor) (t : Nat) (s : Stream) : Prop :=
  ∃ w rest task, x.stack = .adopt w s :: rest ∧ w.task = t ∧ Opened w s x ∧
    x.step.tasks[t]? = some task ∧ task.stream = some s

/-- A task has the stream that was made for it on this channel. -/
inductive InStream (t b : Nat) (a : Address) : Executor → Prop where
  | adopted {x : Executor} {s : Stream} (adopts : x.Adopts t s) (bus : s.bus = b)
      (handle : s.handle = a.handle) (id : s.id = some a.id) : InStream t b a x.step
  | goesOn {x : Executor} (inStream : InStream t b a x) (old : ∀ s, ¬x.Adopts t s)
      (streaming : x.step.IsStreaming t) : InStream t b a x.step
  | asked {x : Executor} (inStream : InStream t b a x) (s : Step) :
    InStream t b a ({ x with log := [], answer := none }.ask s)

/-- What is known of the calls and streams of a run. -/
structure KeepsTargets (x : Executor) : Prop where
  faithful : ∀ (t : Nat) task, x.tasks[t]? = some task → task.IsFaithful
  opened : ∀ w s, .adopt w s ∈ x.stack → s.place = none ∧ Opened w s x
  calls : ∀ (t : Nat) task b a, x.tasks[t]? = some task → task.callTarget? = some (b, a) →
    InCall t b a x
  streams : ∀ (t : Nat) task b a, x.tasks[t]? = some task → task.streamTarget? = some (b, a) →
    InStream t b a x

theorem faithful_of_steps (faithful : task.IsFaithful) (call : x.CallStep t task task')
    (stream : x.StreamStep t task task')
    (opened : ∀ w s, .adopt w s ∈ x.stack → s.place = none) : task'.IsFaithful where
  call b q p recorded progress' := by
    cases call with
    | same progress => exact faithful.call b q p recorded (progress ▸ progress')
    | quits away => exact absurd progress' (away _ _ _ _)
    | looked _ _ _ progress place =>
      cases progress.symm.trans progress'
      exact place p rfl
  stream s p stream' holds := by
    cases stream with
    | same stream => exact faithful.stream s p (stream ▸ stream') holds
    | dropped stream => cases stream.symm.trans stream'
    | looked _ known now place =>
      cases now.symm.trans stream'
      exact ⟨_, known, place p holds⟩
    | ended _ now =>
      cases now.symm.trans stream'
      cases holds
    | adopted stack _ now =>
      cases now.symm.trans stream'
      have none := opened _ s (stack ▸ List.mem_cons_self)
      cases none.symm.trans holds

/-- A task that is in a call after a step was in it before, or begins it in this step. -/
theorem inCall_step (calls : ∀ b a, task.callTarget? = some (b, a) → InCall t b a x)
    (found : x.tasks[t]? = some task) (found' : x.step.tasks[t]? = some task')
    (call : x.CallStep t task task') (about : task'.callTarget? = some (b, a)) :
    InCall t b a x.step := by
  have calling : x.step.IsCalling t := ⟨task', found', by simp [about]⟩
  have goesOn (before : task.callTarget? = some (b, a)) : InCall t b a x.step :=
    .goesOn (calls b a before) .step calling
  obtain ⟨q, prior', recorded, progress', own⟩ := Task.callTarget?_eq_some_iff.1 about
  cases call with
  | same progress =>
    exact goesOn (Task.callTarget?_eq_some_iff.2 ⟨q, prior', recorded, progress ▸ progress', own⟩)
  | quits away => exact absurd progress' (away _ _ _ _)
  | looked stack mine pursues progress _ =>
    cases progress.symm.trans progress'
    cases pursues with
    | calling before =>
      exact goesOn (Task.callTarget?_eq_some_iff.2 ⟨q, _, recorded, before, own⟩)
    | call fresh current resolved =>
      obtain ⟨h, names, found'⟩ := Call.resolve_handle resolved own
      exact .begun ⟨_, _, task, stack, mine, found, fresh, .inl ⟨_, h, current, names, found'⟩⟩
        calling
    | recvFrom fresh current remembered =>
      cases own
      exact .begun ⟨_, _, task, stack, mine, found, fresh, .inr ⟨current, remembered⟩⟩ calling

/-- A task that has a stream after a step had it before, or adopts it in this step. -/
theorem inStream_step (streams : ∀ b a, task.streamTarget? = some (b, a) → InStream t b a x)
    (opened : ∀ w s, .adopt w s ∈ x.stack → Opened w s x)
    (found' : x.step.tasks[t]? = some task') (stream : x.StreamStep t task task')
    (about : task'.streamTarget? = some (b, a)) : InStream t b a x.step := by
  obtain ⟨s, has, bus, handle, known⟩ := Task.streamTarget?_eq_some_iff.1 about
  by_cases adopts : ∃ s', x.Adopts t s'
  · obtain ⟨s', adopts⟩ := adopts
    have adopted := adopts
    obtain ⟨w, rest, task'', -, -, -, found'', has'⟩ := adopted
    cases found'.symm.trans found''
    cases has.symm.trans has'
    exact .adopted adopts bus handle known
  · have old (s : Stream) : ¬x.Adopts t s := fun now => adopts ⟨s, now⟩
    have goesOn (before : task.streamTarget? = some (b, a)) : InStream t b a x.step :=
      .goesOn (streams b a before) old ⟨task', found', by simp [about]⟩
    cases stream with
    | same stream =>
      exact goesOn (Task.streamTarget?_eq_some_iff.2 ⟨s, stream ▸ has, bus, handle, known⟩)
    | dropped none => cases none.symm.trans has
    | looked before _ now _ =>
      cases now.symm.trans has
      exact goesOn (Task.streamTarget?_eq_some_iff.2 ⟨_, before, bus, handle, known⟩)
    | ended _ now =>
      cases now.symm.trans has
      cases known
    | adopted stack own now =>
      cases now.symm.trans has
      have made := opened _ s (stack ▸ List.mem_cons_self)
      exact absurd ⟨_, _, task', stack, own, made, found', has⟩ (old s)

theorem KeepsTargets.step (keeps : x.KeepsTargets) : x.step.KeepsTargets where
  faithful t task' found' := by
    obtain ⟨task, found, call, stream⟩ := step_task found'
    exact faithful_of_steps (keeps.faithful t task found) call stream fun w s there =>
      (keeps.opened w s there).1
  opened w s there := by
    rcases adopt_step there with before | opens
    · obtain ⟨free, opened⟩ := keeps.opened w s before
      exact ⟨free, .goesOn opened before .step⟩
    · have made := opens
      obtain ⟨-, -, -, -, -, -, -, free⟩ := made
      exact ⟨free, .made opens⟩
  calls t task' b a found' about := by
    obtain ⟨task, found, call, -⟩ := step_task found'
    exact inCall_step (fun b a => keeps.calls t task b a found) found found' call about
  streams t task' b a found' about := by
    obtain ⟨task, found, -, stream⟩ := step_task found'
    exact inStream_step (fun b a => keeps.streams t task b a found)
      (fun w s there => (keeps.opened w s there).2) found' stream about

theorem KeepsTargets.ask (keeps : x.KeepsTargets) (s : Step) :
    ({ x with log := [], answer := none }.ask s).KeepsTargets := by
  have follows : x.Follows ({ x with log := [], answer := none }.ask s) := .ask s
  refine ⟨fun t task' found' => ?_, fun w s' there => ?_, fun t task' b a found' about => ?_,
    fun t task' b a found' about => ?_⟩
  · rcases ask_task found' with ⟨task, found, progress, stream⟩ | ⟨fresh, none⟩
    · have faithful := keeps.faithful t task found
      exact ⟨fun b q p recorded progress' => faithful.call b q p recorded (progress ▸ progress'),
        fun s p stream' => faithful.stream s p (stream ▸ stream')⟩
    · exact ⟨fun b q p recorded progress' => (nomatch fresh.symm.trans progress'),
        fun s p stream' => (nomatch none.symm.trans stream')⟩
  · have before : .adopt w s' ∈ x.stack :=
      adopt_ask (x := { x with log := [], answer := none }) there
    obtain ⟨free, opened⟩ := keeps.opened w s' before
    exact ⟨free, .goesOn opened before follows⟩
  · rcases ask_task found' with ⟨task, found, progress, -⟩ | ⟨fresh, -⟩
    · have before : task.callTarget? = some (b, a) := by
        rw [← about, Task.callTarget?, Task.callTarget?, progress]
      exact .goesOn (keeps.calls t task b a found before) follows ⟨task', found', by simp [about]⟩
    · simp [Task.callTarget?, fresh] at about
  · rcases ask_task found' with ⟨task, found, -, stream⟩ | ⟨-, none⟩
    · have before : task.streamTarget? = some (b, a) := by
        rw [← about, Task.streamTarget?, Task.streamTarget?, stream]
      exact .asked (keeps.streams t task b a found before) s
    · simp [Task.streamTarget?, none] at about

theorem Arises.keepsTargets (arises : x.Arises) : x.KeepsTargets := by
  obtain ⟨inline, run⟩ := arises
  induction run with
  | refl =>
    exact ⟨fun _ _ found => (nomatch found), fun _ _ there => (nomatch there),
      fun _ _ _ _ found => (nomatch found), fun _ _ _ _ found => (nomatch found)⟩
  | tail _ follows ih =>
    cases follows with
    | step => exact ih.step
    | ask s => exact ih.ask s

/-! ### What a call or a stream changes -/

/-- The next step changes no channel but one. -/
def ChangesOnly (x : Executor) (b : Nat) (a : Address) : Prop :=
  ∀ b' a', (b', a') ≠ (b, a) → (x.step.registry b').find? a' = (x.registry b').find? a'

theorem changesOnly_of_errand (errand : x.errand? = some (b, e)) (about : e.IsAbout a) :
    x.ChangesOnly b a := by
  intro b' a' other
  rcases registry_of_errand errand b' with same | ⟨rfl, o, ran, state⟩
  · rw [same]
  · rw [state]
    exact e.find?_of_ne about ran fun same => other (by rw [same])

theorem changesOnly_of_none (none : x.errand? = none) (b : Nat) (a : Address) :
    x.ChangesOnly b a := by
  intro b' a' _
  rw [registry_step, outcomeOn, none]
  rfl

/-- Giving up a place changes no channel but the one where it is. -/
theorem changesOnly_of_abandon {held : Option (Nat × Place)}
    (errand : x.errand? = held.map fun held => (held.1, .abandon held.2))
    (about : ∀ b' p, held = some (b', p) → b' = b ∧ p.address = a) : x.ChangesOnly b a := by
  cases held with
  | none => exact changesOnly_of_none errand b a
  | some held =>
    obtain ⟨rfl, address⟩ := about held.1 held.2 rfl
    exact changesOnly_of_errand errand address

/-- The next step is one of the call of a task: it goes on with it, or gives up its place. -/
def ActsInCall (x : Executor) (t : Nat) : Prop :=
  (∃ w rest, x.stack = .proceed w :: rest ∧ w.task = t) ∨
    ∃ rest task, x.stack = .vacate t :: rest ∧ x.tasks[t]? = some task ∧ task.callPlace ≠ none

/-- The next step is one of the stream of a task: it looks for an item, or gives up its place. -/
def ActsInStream (x : Executor) (t : Nat) : Prop :=
  ∃ task, x.tasks[t]? = some task ∧
    ((∃ w rest, x.stack = .proceed w :: rest ∧ w.task = t ∧
        (task.IsAtStream ∨ task.progress = .fresh ∧
          (task.current? = none ∨ ∃ b, task.current? = some ⟨b, .dropStream⟩))) ∨
      (∃ w s rest, x.stack = .adopt w s :: rest ∧ w.task = t) ∨
      ∃ rest, x.stack = .vacate t :: rest ∧ task.callPlace = none)

theorem changesOnly_of_call (faithful : task.IsFaithful) (found : x.tasks[t]? = some task)
    (about : task.callTarget? = some (b, a)) (acts : x.ActsInCall t) : x.ChangesOnly b a := by
  rcases acts with ⟨w, rest, stack, rfl⟩ | ⟨rest, task', stack, found', holds⟩
  · obtain ⟨q, prior, recorded, progress, own⟩ := Task.callTarget?_eq_some_iff.1 about
    have errand : x.errand? = some (b, .look q prior w) := by
      simp [errand?, stack, found, taskErrand?, progress]
    refine changesOnly_of_errand errand ⟨own, fun p member => ?_⟩
    cases member
    exact (faithful.call b q p recorded progress).2 a own
  · cases found.symm.trans found'
    obtain ⟨held, place⟩ := Option.ne_none_iff_exists'.1 holds
    have errand : x.errand? = (some held).map fun held => (held.1, .abandon held.2) := by
      simp [errand?, stack, found, Task.placeErrand?, Task.places, place]
    refine changesOnly_of_abandon errand fun b' p same => ?_
    cases same
    exact faithful.of_callPlace about place

theorem changesOnly_of_begin (begins : x.BeginsCall t b a) : x.ChangesOnly b a := by
  obtain ⟨w, rest, task, stack, rfl, found, fresh, names⟩ := begins
  rcases names with ⟨c, h, current, names, resolved⟩ | ⟨current, remembered⟩
  · obtain ⟨q, pursued, own⟩ : ∃ q, c.resolve (x.registry b) = .ok q ∧ q.address? = some a := by
      cases c <;> cases names <;> exact ⟨_, by rw [Call.resolve, resolved]; rfl, rfl⟩
    have errand : x.errand? = some (b, .look q none w) := by
      simp [errand?, stack, found, taskErrand?, fresh, current, startErrand?, pursued]
    exact changesOnly_of_errand errand ⟨own, fun p member => by cases member⟩
  · have errand : x.errand? = some (b, .look (.recv ⟨a.handle, a.id⟩) none w) := by
      simp [errand?, stack, found, taskErrand?, fresh, current, startErrand?, remembered]
    exact changesOnly_of_errand errand ⟨rfl, fun p member => by cases member⟩

theorem changesOnly_of_stream (faithful : task.IsFaithful) (found : x.tasks[t]? = some task)
    (about : task.streamTarget? = some (b, a)) (acts : x.ActsInStream t) : x.ChangesOnly b a := by
  obtain ⟨s, stream, bus, handle, known⟩ := Task.streamTarget?_eq_some_iff.1 about
  have giving (errand : x.errand? = task.streamErrand?) : x.ChangesOnly b a :=
    changesOnly_of_abandon errand fun b' p => faithful.of_streamPlace about
  have looking (w : Waker) (errand : x.errand? = task.stream.bind (·.errand? w)) :
      x.ChangesOnly b a := by
    have looks : x.errand? = some (b, .look (.recv a) s.place w) := by
      rw [errand, stream, Option.bind_some, Stream.errand?, known, bus, handle]
      rfl
    refine changesOnly_of_errand looks ⟨rfl, fun p member => ?_⟩
    have place : s.place = some p := member
    have holds : task.streamPlace = some (s.bus, p) := by simp [Task.streamPlace, stream, place]
    exact (faithful.of_streamPlace about holds).2
  obtain ⟨task', found', moment⟩ := acts
  cases found.symm.trans found'
  rcases moment with ⟨w, rest, stack, rfl, moment⟩ | ⟨w, s', rest, stack, rfl⟩ |
    ⟨rest, stack, settled⟩
  · have errand : x.errand? = x.taskErrand? w task := by simp [errand?, stack, found]
    rcases moment with (⟨fresh, looks⟩ | ⟨items, progress⟩) | ⟨fresh, ends | ⟨b', current⟩⟩
    · refine looking w ?_
      rw [errand, taskErrand?, fresh]
      rw [Task.looksAtStream] at looks
      split at looks <;> simp_all [startErrand?]
    · exact looking w (by rw [errand, taskErrand?, progress])
    · exact giving (by rw [errand, taskErrand?, fresh]; simp [ends])
    · exact giving (by rw [errand, taskErrand?, fresh]; simp [current, startErrand?])
  · exact giving (by simp [errand?, stack, found])
  · refine giving ?_
    rw [errand?, stack]
    simp only [found, Option.bind_some, Task.placeErrand?, Task.streamErrand?, Task.places, settled]
    cases task.streamPlace <;> rfl

/-! ### Safety -/

/-- Identities are not reused, now and in whatever the run comes to, and calls and streams keep to
theirs. -/
structure HasSafeIdentities (x : Executor) : Prop where
  distinct : ∀ b, ((x.registry b).channels.map (·.id)).Nodup
  issued : ∀ b, ∀ c ∈ (x.registry b).channels, c.id.number < (x.registry b).nextId
  /-- An identity stays under the handle where it is open, for as long as it is open. -/
  stays : ∀ y, Relation.ReflTransGen Follows x y → ∀ b a a' c c', (x.registry b).find? a = some c →
    (y.registry b).find? a' = some c' → a'.id = a.id → a' = a
  /-- Closing its handle ends a channel, and deleting ends all. -/
  ends : ∀ b a (op : Operation), op = .close a.handle ∨ op = .delete →
    ∀ o, op.apply (x.registry b) = .ok o → o.state.find? a = none
  /-- A channel that has ended is found under no handle any more. -/
  gone : ∀ y z, Relation.ReflTransGen Follows x y → Relation.ReflTransGen Follows y z →
    ∀ b a c, (x.registry b).find? a = some c → (y.registry b).find? a = none →
      ∀ h, (z.registry b).find? ⟨h, a.id⟩ = none
  /-- A call changes only the channel that it resolved when it began, from the first step on. -/
  begins : ∀ t b a, x.BeginsCall t b a → x.ChangesOnly b a
  /-- Whatever channel a call is about is the one with which it began: there it waits, and it
  changes no other. -/
  calls : ∀ (t : Nat) task b a, x.tasks[t]? = some task → task.callTarget? = some (b, a) →
    InCall t b a x ∧ (∀ b' p, task.callPlace = some (b', p) → b' = b ∧ p.address = a) ∧
      (x.ActsInCall t → x.ChangesOnly b a)
  /-- Whatever channel a stream is about is the one with which it was made. -/
  streams : ∀ (t : Nat) task b a, x.tasks[t]? = some task → task.streamTarget? = some (b, a) →
    InStream t b a x ∧ (∀ b' p, task.streamPlace = some (b', p) → b' = b ∧ p.address = a) ∧
      (x.ActsInStream t → x.ChangesOnly b a)

/-- In every run identities are safe. -/
theorem identities_are_safe (arises : x.Arises) : x.HasSafeIdentities where
  distinct b := (arises.identified b).nodup
  issued b c isOpen := by
    obtain ⟨h, there⟩ := Registry.mem_channels_iff.1 isOpen
    exact (arises.identified b).issued ⟨h, c.id⟩ c (Registry.find?_of_channel? there)
  stays y run b a a' c c' found found' same :=
    (arises.precedes run b).2.address_eq (arises.identified b) found found' same
  ends b a op ends o ran := Operation.find?_of_ends ends ran
  gone y z run run' b a c found gone h := by
    obtain ⟨arises', first⟩ := arises.precedes run b
    exact first.find?_eq_none (arises'.precedes run' b).2 (arises.identified b) found gone rfl
  begins t b a begins := changesOnly_of_begin begins
  calls t task b a found about := by
    have keeps := arises.keepsTargets
    have faithful := keeps.faithful t task found
    exact ⟨keeps.calls t task b a found about, fun b' p => faithful.of_callPlace about,
      changesOnly_of_call faithful found about⟩
  streams t task b a found about := by
    have keeps := arises.keepsTargets
    have faithful := keeps.faithful t task found
    exact ⟨keeps.streams t task b a found about, fun b' p => faithful.of_streamPlace about,
      changesOnly_of_stream faithful found about⟩

/-- A receive and a stream wait at a channel, which is closed, and another one is opened under its
handle. -/
def handleReused : List Step :=
  [.act 0 (.operate (.openChannel 1)), .spawn [⟨0, .call (.recv 0)⟩] false,
    .spawn [⟨0, .stream 0⟩, ⟨0, .next⟩] false, .run none, .act 0 (.operate (.close 0)),
    .act 0 (.operate (.openChannel 1)), .act 0 (.operate (.trySend 0 9))]

theorem identities_safe_under_reuse :
    ((new false).runScript handleReused).1.HasSafeIdentities ∧
      ((new false).runScript handleReused).1.tasks.map (fun task =>
        (task.callTarget?, task.streamTarget?)) =
          [(some (0, ⟨0, ⟨0⟩⟩), none), (none, some (0, ⟨0, ⟨0⟩⟩))] ∧
      (((new false).runScript handleReused).1.registry 0).channels.map (·.id) = [⟨1⟩] :=
  ⟨identities_are_safe ((arises_new false).runScript handleReused), by decide +kernel,
    by decide +kernel⟩

end Executor

end MessageBus
