import MessageBus.Proofs.Accesses
import MessageBus.Proofs.Atomicity

/-!
# What overwrites the last error

Four things overwrite the slot of the last error: somebody sets it, an operation is refused, a call
fails, or a stream finds its channel gone and comes to its end. Each leaves a `Mark`, and the marks
of a run are read off what its steps do, off the replies that they come to and the streams that they
end, not off the slot (`Executor.marks`).

Most steps are silent: they leave the slot as it is, and nobody is told of a failure for them
(`Executor.Silent`). Only a task that goes on with its instruction may do more.
-/

namespace MessageBus

/-- Something that overwrites the last error. -/
inductive Mark where
  /-- Somebody set the slot. -/
  | set (code : ErrorCode)
  | refused (op : Operation) (e : BusError)
  | failed (call : Call) (e : BusError)
  /-- The stream of this task came to its end. -/
  | ended (task : Nat)
deriving DecidableEq, Repr

/-- What a mark leaves in the slot. -/
def Mark.code : Mark → ErrorCode
  | .set code => code
  | .refused _ e => e.code
  | .failed _ e => e.code
  | .ended _ => .noSuchChannel

/-- What is left in a slot by these marks, one after the other. -/
def ErrorCode.marked (last : ErrorCode) (marks : List Mark) : ErrorCode :=
  ((marks.getLast?).map (·.code)).getD last

@[simp] theorem ErrorCode.marked_nil (last : ErrorCode) : last.marked [] = last := rfl

@[simp] theorem ErrorCode.marked_singleton (last : ErrorCode) (m : Mark) :
    last.marked [m] = m.code := rfl

theorem ErrorCode.marked_append (last : ErrorCode) (marks more : List Mark) :
    last.marked (marks ++ more) = (last.marked marks).marked more := by
  rw [marked, List.getLast?_append, marked, marked]
  cases more.getLast? <;> rfl

/-- Why an operation may be refused. -/
def Operation.MayBeRefused : Operation → BusError → Prop
  | .openChannel _, _ | .close _, _ | .delete, _ | .isOpen _, _ | .channelCount, _ => False
  | .size _, e | .isEmpty _, e | .capacity _, e | .waiting _ _, e => e = .noSuchChannel
  | .trySend _ _, _ | .trySendMany _ _, _ | .tryRecv _, _ | .tryRecvMany _ _, _
  | .tryBroadcast _, _ => True

/-- Why a task may be refused what it does. Only an operation is refused for want of space or
messages. -/
def Deed.MayBeRefused : Deed → BusError → Prop
  | .act (.operate op), e => op.MayBeRefused e
  | .call _, e | .resolve _, e | .recvFrom _, e => e = .noSuchChannel
  | _, _ => False

/-- Whether a failure of the deed counts as the last error. -/
def Deed.isRecorded : Deed → Bool
  | .resolve _ => false
  | .recvFrom _ => false
  | _ => true

/-- Whether a mark can be left at all. -/
def Mark.IsPossible : Mark → Prop
  | .refused op e => op.MayBeRefused e
  | .failed _ e => e = .noSuchChannel
  | .set _ | .ended _ => True

theorem Operation.mayBeRefused {ω : Type} {op : Operation} {r : Registry ω} {e : BusError}
    {o : Outcome (Registry ω) ω Reply} (ran : op.apply r = .ok o)
    (refused : o.answer = .refused e) : op.MayBeRefused e := by
  have missing {α : Type} {value : α → Value} {h : Handle} {look : Channel ω → α}
      (failed : Reply.ofExcept value (r.inspect h look) = .refused e) : e = .noSuchChannel := by
    have failed := of_ofExcept_eq_refused failed
    rw [Registry.inspect] at failed
    split at failed
    · exact (Except.error.inj failed).symm
    · cases failed
  cases op with
  | openChannel _ | close _ | delete | isOpen _ | channelCount =>
    cases ran
    cases refused
  | size _ | isEmpty _ | capacity _ | waiting _ _ =>
    cases ran
    exact missing refused
  | trySend _ _ | trySendMany _ _ | tryRecv _ | tryRecvMany _ _ | tryBroadcast _ => trivial

/-- Whether a frame tells of a refusal. -/
def Frame.isRefusal : Frame → Bool
  | .complete _ (.refused _) => true
  | _ => false

/-- A reply that refuses nothing leaves the last error as it is, and is no refusal on its way. -/
theorem Reply.slot_of_granted {reply : Reply} (granted : ∀ e, reply ≠ .refused e)
    (last : ErrorCode) (caller : Caller) :
    last.afterReply reply = last ∧ (Frame.complete caller reply).isRefusal = false := by
  cases reply with
  | refused e => exact absurd rfl (granted e)
  | _ => exact ⟨rfl, rfl⟩

/-- Whether nothing that can be noticed by a task comes of a frame. -/
def Frame.isMute : Frame → Bool
  | .release _ => true
  | .wake [] => true
  | .tell _ => true
  | _ => false

/-- A call that fails at once has done nothing. -/
theorem Call.start_failed {ω : Type} {call : Call} {r : Registry ω} {k : ω} {e : BusError}
    {o : Outcome (Registry ω) ω Turn} (ran : call.start r k = .ok o)
    (failed : o.answer = .finished (.error e)) : e = .noSuchChannel ∧ o.DoesNothing r := by
  rw [Call.start] at ran
  split at ran
  · rename_i unresolved
    cases ran
    cases failed
    exact ⟨Call.resolve_failed unresolved, rfl, rfl⟩
  · rename_i q _
    exact Request.look_failed (show q.look _ none _ = .ok o from ran) failed

namespace Executor

variable {α : Type} {x y z : Executor} {b t : Nat} {w : Waker} {task : Task} {frames : List Frame}

/-! ### Marks -/

/-- Whether a task has a stream that has not come to its end. -/
def isStreaming (x : Executor) (t : Nat) : Bool :=
  ((x.tasks[t]?).bind (·.stream)).any (·.id.isSome)

/-- The refusal that was just decided on a bus, with nobody to wake before it is told. -/
def refusal? (x : Executor) : Option BusError :=
  match x.stack with
  | .release _ :: .wake [] :: .tell _ :: .complete _ (.refused e) :: _ => some e
  | _ => none

/-- The mark that the next step leaves, in which the task `t` goes on with this deed. -/
def marksOf (x : Executor) (t : Nat) : Deed → List Mark
  | .act (.setLastError code) => [.set code]
  | .act (.operate op) => x.step.refusal?.toList.map (.refused op)
  | .call c => x.step.refusal?.toList.map (.failed c)
  | .next | .tryNext | .collect =>
    if x.isStreaming t && !x.step.isStreaming t then [.ended t] else []
  | _ => []

/-- The mark that the next step leaves, if it leaves one. -/
def marks (x : Executor) : List Mark :=
  match x.stack with
  | .proceed w :: _ =>
    match (x.tasks[w.task]?).bind (·.current?) with
    | some i => x.marksOf w.task i.deed
    | none => []
  | _ => []

/-- The mark that is left as something is asked for. -/
def marksOfAsk (x : Executor) (s : Step) : List Mark :=
  match s with
  | .act _ (.setLastError code) => [.set code]
  | .act _ (.operate op) => (x.ask s).refusal?.toList.map (.refused op)
  | _ => []

/-- The runs in which nothing is asked for before the last request is over, with the marks that they
have left. -/
inductive Marked : Executor → List Mark → Prop where
  | new (inline : Bool) : Marked (new inline) []
  | step {x : Executor} {marks : List Mark} (marked : Marked x marks) :
    Marked x.step (marks ++ x.marks)
  | ask {x : Executor} {marks : List Mark} (marked : Marked x marks) (idle : x.stack = [])
      (s : Step) : Marked ({ x with log := [], answer := none }.ask s)
        (marks ++ marksOfAsk { x with log := [], answer := none } s)

/-! ### Who is silent -/

/-- Nothing is told of a failure that was not told before. -/
def TellsNoMore (x y : Executor) : Prop :=
  ∀ f ∈ y.stack, f.isRefusal = true → f ∈ x.stack

/-- The slot is left as it is, and nothing is told of a failure. -/
structure Silent (x y : Executor) : Prop where
  slot : y.lastError = x.lastError
  tells : x.TellsNoMore y

theorem tellsNoMore_of_stack (stack : y.stack = frames ++ x.stack)
    (none : ∀ f ∈ frames, f.isRefusal = false) : x.TellsNoMore y := by
  intro f member refusal
  rw [stack] at member
  rcases List.mem_append.1 member with new | old
  · cases refusal.symm.trans (none f new)
  · exact old

theorem Silent.refl (x : Executor) : x.Silent x := ⟨rfl, fun _ member _ => member⟩

theorem Silent.trans (silent : x.Silent y) (later : y.Silent z) : x.Silent z :=
  ⟨later.slot.trans silent.slot, fun f member refusal =>
    silent.tells f (later.tells f member refusal) refusal⟩

/-- Whatever else changes, who keeps the slot and puts no refusal on the stack is silent. -/
theorem silent_of_stack (frames : List Frame) (slot : y.lastError = x.lastError)
    (stack : y.stack = frames ++ x.stack) (none : ∀ f ∈ frames, f.isRefusal = false) :
    x.Silent y := ⟨slot, tellsNoMore_of_stack stack none⟩

theorem silent_of_same (slot : y.lastError = x.lastError) (stack : y.stack = x.stack) :
    x.Silent y := silent_of_stack [] slot stack (List.forall_mem_nil _)

theorem silent_of_one (f : Frame) (slot : y.lastError = x.lastError)
    (stack : y.stack = f :: x.stack) (none : f.isRefusal = false) : x.Silent y :=
  silent_of_stack [f] slot stack (List.forall_mem_singleton.2 none)

section

variable {r : Registry Waker} {told z : Executor} {b : Nat} {woken : List Waker}
  {after : List Note} {f : Frame}

theorem Entering.tellsNoMore (entering : x.Entering b r told) (stack : z.stack = f :: told.stack)
    (granted : f.isRefusal = false) :
    x.TellsNoMore (z.push [.release b, .wake woken, .tell after]) := by
  have stack : (z.push [.release b, .wake woken, .tell after]).stack =
      [.release b, .wake woken, .tell after, f] ++ x.stack := by
    rw [← entering.stack]
    exact congrArg ([Frame.release b, .wake woken, .tell after] ++ ·) stack
  exact tellsNoMore_of_stack stack (by simpa [Frame.isRefusal] using granted)

/-- An access after which comes a frame that refuses nothing is silent. -/
theorem Entering.silent (entering : x.Entering b r told) (slot : z.lastError = told.lastError)
    (stack : z.stack = f :: told.stack) (granted : f.isRefusal = false) :
    x.Silent (z.push [.release b, .wake woken, .tell after]) :=
  ⟨slot.trans entering.slot, entering.tellsNoMore stack granted⟩

end

theorem silent_tell (x : Executor) (notes : List Note) : x.Silent (x.tell notes) :=
  silent_of_same (lastError_tell x notes) (x.tell_same notes).2.2

theorem silent_fail (x : Executor) (fault : Fault) : x.Silent (x.fail fault) :=
  ⟨rfl, fun _ member _ => (List.mem_filter.1 member).1⟩

theorem silent_access {f : Registry Waker → Except Fault (Outcome (Registry Waker) Waker α)}
    {next : α → Executor → Executor} (silent : ∀ (a : α) (y : Executor), y.Silent (next a y)) :
    x.Silent (x.access b f next) := by
  have accessed := x.access_accessed b f next
  generalize x.access b f next = y at accessed
  cases accessed with
  | broken fault => exact silent_fail x fault
  | @entered _ o told _ _ _ entering =>
    have enters : x.Silent told := silent_of_same entering.slot entering.stack
    have goesOn := enters.trans (silent o.answer told)
    exact goesOn.trans (silent_of_stack [_, _, _] rfl rfl (by simp [Frame.isRefusal]))

theorem silent_giveUp {p : Place} {forget : Executor → Executor}
    (silent : ∀ y : Executor, y.Silent (forget y)) : x.Silent (x.giveUp b p forget) := by
  rw [giveUp]
  split
  · split
    · exact silent x
    · exact (silent x).trans (silent_fail _ _)
  · exact silent_access fun _ => silent

theorem silent_replaceStream (x : Executor) (t : Nat) (stream : Option Stream) {f : Frame}
    (none : f.isRefusal = false) : x.Silent (x.replaceStream t stream [f]) := by
  rw [replaceStream]
  split
  · exact silent_of_one f rfl rfl none
  · exact silent_giveUp fun y => silent_of_one f rfl rfl none

theorem silent_dropTask (x : Executor) (t : Nat) {andThen : Bool → List Frame}
    (none : ∀ dropped, ∀ f ∈ andThen dropped, f.isRefusal = false) :
    x.Silent (x.dropTask t andThen) := by
  rw [dropTask]
  split
  · exact silent_of_stack _ rfl rfl (none false)
  · split
    · exact silent_of_stack _ rfl rfl (List.forall_mem_cons.2 ⟨rfl, none true⟩)
    · exact silent_of_stack _ rfl rfl (none false)

/-- An action that is no operation and does not set the slot is silent. -/
theorem silent_act (x : Executor) (b : Nat) (caller : Caller) {a : Action}
    (other : ∀ op, a ≠ .operate op) (other' : ∀ code, a ≠ .setLastError code) :
    x.Silent (x.act b caller a) := by
  cases a with
  | operate op => exact absurd rfl (other op)
  | setLastError code => exact absurd rfl (other' code)
  | drop t =>
    show x.Silent (x.dropTask t fun dropped => [.complete caller (.plain (.flag dropped))])
    exact silent_dropTask x t fun _ => List.forall_mem_singleton.2 rfl
  | _ => exact silent_of_one _ rfl rfl rfl

theorem silent_rouse (x : Executor) (w : Waker) : x.Silent (x.rouse w) := by
  rw [rouse]
  split
  · exact .refl x
  · split
    · split
      · exact silent_of_one _ rfl rfl rfl
      · split
        · exact .refl x
        · exact silent_of_same rfl rfl
    · exact .refl x

theorem silent_receive (x : Executor) (w : Waker) (task : Task) (item : Option Message) :
    x.Silent (x.receive w task item) := by
  rw [receive]
  split
  · dsimp only
    split <;> exact silent_of_one _ rfl rfl rfl
  · exact silent_of_one _ rfl rfl rfl

theorem silent_drain (x : Executor) (limit : Option Nat) (polled : Nat) :
    x.Silent (x.drain limit polled) := by
  rw [drain.eq_def]
  split
  · exact silent_of_same rfl rfl
  · exact silent_of_same rfl rfl
  · dsimp only
    split
    · exact silent_of_stack [_, _] rfl rfl (by simp [Frame.isRefusal])
    · exact silent_of_one _ rfl rfl rfl

theorem silent_vacate (x : Executor) (t : Nat) (task : Task) : x.Silent (x.vacate t task) := by
  rw [vacate]
  split
  · exact .refl x
  · have begins : x.Silent (x.push [.vacate t]) := silent_of_one _ rfl rfl rfl
    exact begins.trans (silent_giveUp fun _ => silent_of_same rfl rfl)

theorem silent_withTask {go : Task → Executor} (silent : ∀ task, x.Silent (go task)) :
    x.Silent (x.withTask t go) :=
  withTask_cases (motive := x.Silent) (fun _ => .refl x) fun task _ => silent task

/-- Only a task that goes on can write to the slot or fail. -/
theorem silent_perform (x : Executor) {f : Frame} (other : ∀ w, f ≠ .proceed w) :
    x.Silent (x.perform f) := by
  cases f with
  | proceed w => exact absurd rfl (other w)
  | release b => exact silent_of_same rfl rfl
  | wake wakers =>
    cases wakers with
    | nil => exact .refl x
    | cons w later =>
      have called : x.Silent ((x.push [.wake later]).happen (.woken w)) :=
        silent_of_one _ rfl rfl rfl
      exact called.trans (silent_rouse _ w)
  | tell notes => exact silent_tell x notes
  | poll w =>
    refine silent_withTask fun task => ?_
    split
    · exact silent_of_stack [_, _] rfl rfl (by simp [Frame.isRefusal])
    · exact .refl x
  | suspend t => exact silent_of_same rfl rfl
  | complete caller reply =>
    cases caller with
    | outside => exact silent_of_same rfl rfl
    | task w => exact silent_withTask fun task => silent_of_one _ rfl rfl rfl
  | receive w item => exact silent_withTask fun task => silent_receive x w task item
  | adopt w s => exact silent_replaceStream x _ _ rfl
  | observe t =>
    refine silent_withTask fun task => ?_
    rw [Executor.observe]
    split
    · exact silent_of_same rfl rfl
    · exact .refl x
  | conclude w before after b a side result => exact silent_of_one _ rfl rfl rfl
  | finish t => exact silent_of_same rfl rfl
  | vacate t => exact silent_withTask fun task => silent_vacate x t task
  | leave t =>
    refine silent_withTask fun task => ?_
    split
    · exact silent_of_one _ rfl rfl rfl
    · exact .refl x
  | drain limit polled => exact silent_drain x limit polled
  | verdict t => exact silent_withTask fun task => silent_of_same rfl rfl

end Executor

end MessageBus
