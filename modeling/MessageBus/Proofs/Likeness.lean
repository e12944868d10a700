import MessageBus.Proofs.Unfolding
import MessageBus.Script
import Mathlib.Data.List.Forall2

/-!
# Executors that are alike

Two executors are compared that differ in what their buses keep for those who wait. A `Likeness`
says which registries may stand for each other, and which places in them. Everything else is the
same: the same tasks are at the same instructions, are ready in the same order, and are called and
answered alike (`Executor.Alike`). What is told to observers does not count. Some replies may
differ: those that show who waits, where it is said that they may.

Whatever is done to both leaves them alike, if the errands that are carried out on their buses come
to the same (`Likeness.Serves`). There is one lemma for each way in which an executor changes.
-/

namespace MessageBus

/-! ### What shows who waits -/

/-- What a reply shows of those who wait: nothing, how many they are, or their tickets. -/
inductive Sight where
  | nothing
  | number
  | tickets
deriving DecidableEq, Repr

/-- Whether something of a caller is seen. `waits` says whether it is one of those who wait. -/
def Sight.Shows (waits : Prop) : Sight → Prop
  | .nothing => False
  | .number => waits
  | .tickets => True

instance (waits : Prop) [Decidable waits] : (s : Sight) → Decidable (s.Shows waits)
  | .nothing => .isFalse id
  | .number => inferInstanceAs (Decidable waits)
  | .tickets => .isTrue trivial

def Operation.sight : Operation → Sight
  | .waiting _ _ => .number
  | _ => .nothing

def Action.sight : Action → Sight
  | .operate op => op.sight
  | .dump => .tickets
  | _ => .nothing

def Deed.sight : Deed → Sight
  | .act action => action.sight
  | _ => .nothing

def Step.sight : Step → Sight
  | .act _ action => action.sight
  | .report => .tickets
  | _ => .nothing

/-- Whether the reply to a caller may differ: what was asked from outside, or an instruction of a
task, by its index. -/
def Caller.MayDiffer (tasks : List Task) (differs : Nat → Nat → Prop) (asked : Prop) :
    Caller → Prop
  | .outside => asked
  | .task w => ∃ task, tasks[w.task]? = some task ∧ differs w.task task.position

/-- Whether the reply to the instruction that is gone on with may differ, if it shows who waits. -/
def Frame.LetsDiffer (tasks : List Task) (waits : Prop) (differs : Nat → Nat → Prop) : Frame → Prop
  | .proceed w => ∀ task ∈ tasks[w.task]?, ∀ i ∈ task.current?,
    i.deed.sight.Shows waits → differs w.task task.position
  | _ => True

instance (tasks : List Task) (waits : Prop) (differs : Nat → Nat → Prop) [Decidable waits]
    [∀ t i, Decidable (differs t i)] : (f : Frame) → Decidable (f.LetsDiffer tasks waits differs)
  | .proceed w => inferInstanceAs (Decidable (∀ task ∈ tasks[w.task]?, _))
  | .release _ | .wake _ | .tell _ | .poll _ | .suspend _ | .complete _ _ | .receive _ _
  | .adopt _ _ | .observe _ | .conclude _ _ _ _ _ _ _ | .finish _ | .vacate _ | .leave _
  | .drain _ _ | .verdict _ => .isTrue trivial

/-! ### Likeness -/

/-- Outcomes that correspond: they leave and answer what corresponds, and wake the same callers. -/
structure Outcome.Alike {σ ω α : Type} (state : σ → σ → Prop) (answer : α → α → Prop)
    (o o' : Outcome σ ω α) : Prop where
  answer : answer o.answer o'.answer
  state : state o.state o'.state
  woken : o'.woken = o.woken

/-- Replies that are the same, but for the texts of a bare wait, and for texts and numbers where
they may differ. -/
inductive Reply.Alike (differs : Prop) : Reply → Reply → Prop where
  | same (reply : Reply) : Alike differs reply reply
  | wait (before before' : String) (after after' : List String)
      (result again : Except BusError Unit) :
    Alike differs (.wait before after result again) (.wait before' after' result again)
  | text (may : differs) (s s' : String) : Alike differs (.text s) (.text s')
  | lines (may : differs) (ls ls' : List String) : Alike differs (.lines ls) (.lines ls')
  | count (may : differs) (n n' : Nat) :
    Alike differs (.granted (.number n)) (.granted (.number n'))

/-- Frames that differ in what is told or described only. -/
inductive Frame.Alike (differs : Caller → Prop) : Frame → Frame → Prop where
  | same (f : Frame) : Alike differs f f
  | tell (notes notes' : List Note) : Alike differs (.tell notes) (.tell notes')
  | complete (caller : Caller) {reply reply' : Reply}
      (replies : reply.Alike (differs caller) reply') :
    Alike differs (.complete caller reply) (.complete caller reply')
  | conclude (w : Waker) (before before' : String) (after after' : List String) (b : Nat)
      (a : Address) (side : Side) (result : Except BusError Unit) :
    Alike differs (.conclude w before after b a side result)
      (.conclude w before' after' b a side result)

/-- Events that are the same, but for what may differ in replies. -/
inductive Event.Alike (differs : Nat → Nat → Prop) : Event → Event → Prop where
  | same (e : Event) : Alike differs e e
  | completed (t i : Nat) {reply reply' : Reply} (replies : reply.Alike (differs t i) reply') :
    Alike differs (.completed t i reply) (.completed t i reply')

/-- Turns of a request that are the same, but for the place that was taken. -/
inductive Turn.Alike (place : Place → Place → Prop) : Turn → Turn → Prop where
  | finished (result : Except BusError Value) : Alike place (.finished result) (.finished result)
  | parked (q : Request) {p p' : Place} (alike : place p p') :
    Alike place (.parked q p) (.parked q p')
  | waiting : Alike place .waiting .waiting
  | again (q : Request) : Alike place (.again q) (.again q)

/-- How two executors may differ. -/
structure Likeness where
  /-- Which registries of a bus may stand for each other. -/
  registry : Nat → Registry Waker → Registry Waker → Prop
  /-- Which places on a bus stand for each other. -/
  place : Nat → Place → Place → Prop
  /-- What the first may keep of an instruction of which the second keeps nothing. -/
  absent : Nat → Progress → Prop
  resolve : ∀ {b r r'}, registry b r r' → ∀ h, r'.resolve h = r.resolve h
  summary : ∀ {b r r'}, registry b r r' → ∀ inUse, r'.summary inUse = r.summary inUse
  address : ∀ {b p p'}, place b p p' → p'.address = p.address ∧ p'.side = p.side
  calling : ∀ {t progress}, absent t progress →
    ∃ b q p recorded, progress = .calling b q (some p) recorded

namespace Likeness

variable (L : Likeness)

/-- Whether an errand on two registries comes to the same. If `waits` holds, as many callers need
not wait. -/
def Serves (waits : Prop) (b : Nat) (r r' : Registry Waker) : Errand Waker → Prop
  | .operate op => ∀ o, op.apply r = .ok o → ∃ o', op.apply r' = .ok o' ∧
      o.Alike (L.registry b) (Reply.Alike (op.sight.Shows waits)) o'
  | .look q prior k => ∀ prior', Option.Rel (L.place b) prior prior' →
      ∀ o, q.look r prior k = .ok o → ∃ o', q.look r' prior' k = .ok o' ∧
        o.Alike (L.registry b) (Turn.Alike (L.place b)) o'
  | .park a side k => ∀ o, r.park a side k = .ok o → ∃ o', r'.park a side k = .ok o' ∧
      o.Alike (L.registry b) (Option.Rel (L.place b)) o'
  | .revisit p k => ∀ p', L.place b p p' →
      (r.revisit p k).Alike (L.registry b) (· = ·) (r'.revisit p' k)
  | .abandon p => ∀ p', L.place b p p' →
      (r.abandon p).Alike (L.registry b) (· = ·) (r'.abandon p')
  | .glance => True

/-- What two tasks may keep of the same instruction. -/
inductive Progresses (t : Nat) : Progress → Progress → Prop where
  | fresh : Progresses t .fresh .fresh
  | calling (b : Nat) (q : Request) {place place' : Option Place} (recorded : Bool)
      (places : Option.Rel (L.place b) place place') :
    Progresses t (.calling b q place recorded) (.calling b q place' recorded)
  | yielded : Progresses t .yielded .yielded
  | collecting (items : List Message) : Progresses t (.collecting items) (.collecting items)
  | waiting (b : Nat) {p p' : Place} (places : L.place b p p') (before before' : String)
      (after after' : List String) :
    Progresses t (.waiting b p before after) (.waiting b p' before' after')
  | absent {progress : Progress} (absent : L.absent t progress) : Progresses t progress .fresh

/-- Streams that differ in their places only. -/
structure Streams (s s' : Stream) : Prop where
  same : s' = { s with place := s'.place }
  place : Option.Rel (L.place s.bus) s.place s'.place

/-- Tasks at the same point of the same program. -/
structure Tasks (t : Nat) (task task' : Task) : Prop where
  same : task' = { task with progress := task'.progress, stream := task'.stream }
  progress : L.Progresses t task.progress task'.progress
  stream : Option.Rel L.Streams task.stream task'.stream

structure Buses (b : Nat) (bus bus' : SharedBus) : Prop where
  registry : L.registry b bus.registry bus'.registry
  inUse : bus'.inUse = bus.inUse

end Likeness

/-- Whether an event is there for observers only. -/
def Event.isTrace : Event → Bool
  | .traced _ => true
  | _ => false

namespace Executor

/-- What was seen to happen, apart from what observers were told. -/
def seen (x : Executor) : List Event := x.log.filter (!·.isTrace)

/-- Two executors that are alike. The replies to some instructions may differ, and if `asked` holds,
so may the answer to what was asked from outside. -/
structure Alike (L : Likeness) (differs : Nat → Nat → Prop) (asked : Prop) (x y : Executor) :
    Prop where
  inline : y.inline = x.inline
  buses : ∀ b, Option.Rel (L.Buses b) x.buses[b]? y.buses[b]?
  tasks : ∀ t, Option.Rel (L.Tasks t) x.tasks[t]? y.tasks[t]?
  ready : y.ready = x.ready
  slot : y.lastError = x.lastError
  seen : List.Forall₂ (Event.Alike differs) x.seen y.seen
  stack : List.Forall₂ (Frame.Alike (Caller.MayDiffer x.tasks differs asked)) x.stack y.stack
  answer : Option.Rel (Reply.Alike asked) x.answer y.answer

/-- What is to be carried out on a bus is carried out, and comes to the same on the other. -/
def Served (L : Likeness) (waits : Prop) (x y : Executor) (b : Nat) (e : Errand Waker) : Prop :=
  (∃ o, e.effect (x.registry b) = .ok o) ∧ L.Serves waits b (x.registry b) (y.registry b) e

/-- Whether the reply to the instruction that a task goes on with may differ, if it shows who
waits. -/
def LetsDiffer (x : Executor) (waits : Prop) (differs : Nat → Nat → Prop) : Prop :=
  ∀ f ∈ x.stack.head?, f.LetsDiffer x.tasks waits differs

instance (x : Executor) (waits : Prop) (differs : Nat → Nat → Prop) [Decidable waits]
    [∀ t i, Decidable (differs t i)] : Decidable (x.LetsDiffer waits differs) :=
  inferInstanceAs (Decidable (∀ f ∈ x.stack.head?, _))

end Executor

/-! ### Parts that are alike -/

/-- What goes on alike from outcomes that wake the same callers is alike. -/
theorem Outcome.exists_andThen_alike {σ ω α α' β : Type} {state : σ → σ → Prop}
    {answers : β → β → Prop} {o : Outcome σ ω α} {o' : Outcome σ ω α'} {p : Outcome σ ω β}
    {next : α → σ → Except Fault (Outcome σ ω β)} {next' : α' → σ → Except Fault (Outcome σ ω β)}
    (woken : o'.woken = o.woken) (ran : o.andThen next = .ok p)
    (same : ∀ q, next o.answer o.state = .ok q → q.state = p.state →
      ∃ q', next' o'.answer o'.state = .ok q' ∧ q.Alike state answers q') :
    ∃ p', o'.andThen next' = .ok p' ∧ p.Alike state answers p' := by
  obtain ⟨q, went, answer, left, owed⟩ := of_andThen_eq_ok ran
  obtain ⟨q', went', alike⟩ := same q went left.symm
  refine ⟨_, andThen_of_ok went', ?_, ?_, ?_⟩
  · rw [answer]
    exact alike.answer
  · rw [left]
    exact alike.state
  · rw [owed, woken, alike.woken]

theorem Reply.Alike.afterReply {differs : Prop} {reply reply' : Reply}
    (alike : reply.Alike differs reply') (last : ErrorCode) :
    last.afterReply reply' = last.afterReply reply := by
  cases alike <;> rfl

theorem Reply.Alike.mono {differs differs' : Prop} {reply reply' : Reply}
    (alike : reply.Alike differs reply') (imp : differs → differs') :
    reply.Alike differs' reply' := by
  cases alike with
  | same => exact .same _
  | wait => exact .wait _ _ _ _ _ _
  | text may => exact .text (imp may) _ _
  | lines may => exact .lines (imp may) _ _
  | count may => exact .count (imp may) _ _

theorem Frame.Alike.clearsAway {differs : Caller → Prop} {f f' : Frame}
    (alike : f.Alike differs f') : f'.clearsAway = f.clearsAway := by
  cases alike <;> rfl

theorem Frame.Alike.mono {differs differs' : Caller → Prop} {f f' : Frame}
    (alike : f.Alike differs f')
    (imp : ∀ caller reply, f = .complete caller reply → differs caller → differs' caller) :
    f.Alike differs' f' := by
  cases alike with
  | same => exact .same _
  | tell => exact .tell _ _
  | complete caller replies => exact .complete caller (replies.mono (imp caller _ rfl))
  | conclude => exact .conclude _ _ _ _ _ _ _ _ _

theorem Turn.Alike.imp {place place' : Place → Place → Prop} {turn turn' : Turn}
    (alike : turn.Alike place turn') (same : ∀ p p', place p p' → place' p p') :
    turn.Alike place' turn' := by
  cases alike with
  | finished result => exact .finished result
  | parked q places => exact .parked q (same _ _ places)
  | waiting => exact .waiting
  | again q => exact .again q

namespace Likeness

variable {L : Likeness} {t : Nat} {task task' : Task}

theorem Tasks.program (alike : L.Tasks t task task') : task'.program = task.program := by
  rw [alike.same]

theorem Tasks.position (alike : L.Tasks t task task') : task'.position = task.position := by
  rw [alike.same]

theorem Tasks.life (alike : L.Tasks t task task') : task'.life = task.life := by
  rw [alike.same]

theorem Tasks.remembered (alike : L.Tasks t task task') :
    task'.remembered = task.remembered := by
  rw [alike.same]

theorem Tasks.current? (alike : L.Tasks t task task') : task'.current? = task.current? := by
  rw [Task.current?, Task.current?, alike.program, alike.position]

theorem Tasks.isIdle (alike : L.Tasks t task task') : task'.isIdle = task.isIdle := by
  rw [Task.isIdle, Task.isIdle, alike.life]

theorem Tasks.isAlive (alike : L.Tasks t task task') : task'.isAlive = task.isAlive := by
  rw [Task.isAlive, Task.isAlive, alike.life]

theorem Tasks.looksAtStream (alike : L.Tasks t task task') :
    task'.looksAtStream = task.looksAtStream := by
  rw [Task.looksAtStream, Task.looksAtStream, alike.current?]

theorem Streams.bus {s s' : Stream} (alike : L.Streams s s') : s'.bus = s.bus := by
  rw [alike.same]

theorem Streams.handle {s s' : Stream} (alike : L.Streams s s') : s'.handle = s.handle := by
  rw [alike.same]

theorem Streams.id {s s' : Stream} (alike : L.Streams s s') : s'.id = s.id := by
  rw [alike.same]

/-- A stream without a place is like itself. -/
theorem streams_of_place {s : Stream} (free : s.place = none) : L.Streams s s :=
  ⟨rfl, by rw [free]; exact .none⟩

/-- A task whose places may stand for themselves is like itself. -/
theorem tasks_self (places : ∀ held ∈ task.places, L.place held.1 held.2 held.2) :
    L.Tasks t task task := by
  have call : ∀ held ∈ task.callPlace, L.place held.1 held.2 held.2 := fun held holds =>
    places held (List.mem_append_left _ (Option.mem_toList.2 holds))
  have stream : ∀ held ∈ task.streamPlace, L.place held.1 held.2 held.2 := fun held holds =>
    places held (List.mem_append_right _ (Option.mem_toList.2 holds))
  refine ⟨rfl, ?_, ?_⟩
  · rw [Task.callPlace] at call
    generalize task.progress = progress at call ⊢
    cases progress with
    | fresh => exact .fresh
    | calling b q place recorded =>
      cases place with
      | none => exact .calling b q recorded .none
      | some p => exact .calling b q recorded (.some (call (b, p) rfl))
    | yielded => exact .yielded
    | collecting items => exact .collecting items
    | waiting b p before after => exact .waiting b (call (b, p) rfl) _ _ _ _
  · rw [Task.streamPlace] at stream
    generalize task.stream = before at stream ⊢
    cases before with
    | none => exact .none
    | some s =>
      refine .some ⟨rfl, ?_⟩
      rw [Option.bind_some] at stream
      generalize s.place = place at stream ⊢
      cases place with
      | none => exact .none
      | some p => exact .some (stream (s.bus, p) rfl)

/-- The places of streams that are alike stand for each other. -/
theorem Tasks.streamPlace (alike : L.Tasks t task task') :
    Option.Rel (fun held held' => held'.1 = held.1 ∧ L.place held.1 held.2 held'.2)
      task.streamPlace task'.streamPlace := by
  have stream := alike.stream
  rw [Task.streamPlace, Task.streamPlace]
  generalize task.stream = before at stream ⊢
  generalize task'.stream = after at stream ⊢
  cases stream with
  | none => exact .none
  | @some s s' streams =>
    have place := streams.place
    rw [Option.bind_some, Option.bind_some, streams.bus]
    generalize s.place = before at place ⊢
    generalize s'.place = after at place ⊢
    cases place with
    | none => exact .none
    | some places => exact .some ⟨rfl, places⟩

theorem Tasks.callPlace (alike : L.Tasks t task task') (present : ¬L.absent t task.progress) :
    Option.Rel (fun held held' => held'.1 = held.1 ∧ L.place held.1 held.2 held'.2)
      task.callPlace task'.callPlace := by
  have progress := alike.progress
  rw [Task.callPlace, Task.callPlace]
  generalize task.progress = before at progress present ⊢
  generalize task'.progress = after at progress ⊢
  cases progress with
  | calling b q recorded places =>
    cases places with
    | none => exact .none
    | some places => exact .some ⟨rfl, places⟩
  | waiting b places => exact .some ⟨rfl, places⟩
  | absent gone => exact absurd gone present
  | _ => exact .none

theorem Tasks.places (alike : L.Tasks t task task') (present : ¬L.absent t task.progress) :
    List.Forall₂ (fun held held' => held'.1 = held.1 ∧ L.place held.1 held.2 held'.2)
      task.places task'.places := by
  have list {R : Nat × Place → Nat × Place → Prop} {o o' : Option (Nat × Place)}
      (held : Option.Rel R o o') : List.Forall₂ R o.toList o'.toList := by
    cases held with
    | none => exact .nil
    | some held => exact .cons held .nil
  exact List.rel_append (list (alike.callPlace present)) (list alike.streamPlace)

/-- Another progress and another stream leave tasks at the same point. -/
theorem Tasks.keep (alike : L.Tasks t task task') {progress progress' : Progress}
    (kept : L.Progresses t progress progress') :
    L.Tasks t { task with progress } { task' with progress := progress' } := by
  obtain ⟨same, -, stream⟩ := alike
  refine ⟨?_, kept, stream⟩
  rw [same]

theorem Tasks.withStream (alike : L.Tasks t task task') {stream stream' : Option Stream}
    (streams : Option.Rel L.Streams stream stream') :
    L.Tasks t { task with stream } { task' with stream := stream' } := by
  obtain ⟨same, progress, -⟩ := alike
  refine ⟨?_, progress, streams⟩
  rw [same]

theorem Tasks.withLife (alike : L.Tasks t task task') (life : Life) :
    L.Tasks t { task with life } { task' with life } := by
  obtain ⟨same, progress, stream⟩ := alike
  refine ⟨?_, progress, stream⟩
  rw [same]

theorem Tasks.remember (alike : L.Tasks t task task') (remembered : Option ChannelId) :
    L.Tasks t { task with remembered } { task' with remembered } := by
  obtain ⟨same, progress, stream⟩ := alike
  refine ⟨?_, progress, stream⟩
  rw [same]

theorem Tasks.breakOff (alike : L.Tasks t task task') : L.Tasks t task.breakOff task'.breakOff := by
  have looks := alike.looksAtStream
  obtain ⟨same, -, stream⟩ := alike
  refine ⟨?_, .fresh, ?_⟩
  · rw [Task.breakOff, Task.breakOff, looks, same]
  · rw [Task.breakOff, Task.breakOff, looks]
    cases task.looksAtStream with
    | true => exact .none
    | false => exact stream

/-- Both give up the place of the same part. -/
theorem Tasks.giveUpPlace (alike : L.Tasks t task task') (present : ¬L.absent t task.progress) :
    L.Tasks t task.giveUpPlace task'.giveUpPlace := by
  have places := alike.callPlace present
  rw [Task.giveUpPlace, Task.giveUpPlace]
  generalize task.callPlace = before at places ⊢
  generalize task'.callPlace = after at places ⊢
  cases places with
  | none => exact alike.withStream .none
  | some _ => exact alike.keep .fresh

/-- Both go on to the same instruction. -/
theorem Tasks.advance (alike : L.Tasks t task task') {differs : Prop} {reply reply' : Reply}
    (replies : reply.Alike differs reply') :
    L.Tasks t (task.advance reply) (task'.advance reply') := by
  obtain ⟨same, -, stream⟩ := alike
  obtain ⟨_, stops, _, _, _, _, _⟩ := task
  obtain ⟨_, _, _, _, _, _, _⟩ := task'
  cases same
  refine ⟨?_, .fresh, stream⟩
  cases replies <;> cases stops <;> rfl

theorem tasks_new (program : List Instruction) (stopsOnError : Bool) :
    L.Tasks t (Task.new program stopsOnError) (Task.new program stopsOnError) :=
  ⟨rfl, .fresh, .none⟩

end Likeness

end MessageBus
