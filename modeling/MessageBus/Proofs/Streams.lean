import MessageBus.Proofs.Accesses
import MessageBus.Proofs.Gone

/-!
# Polls of a stream

A stream looks for its next item by a receive, and keeps the place of this receive from one poll to
the next. So a poll of it comes to what it would come to if, in place of its task, there were one
that is in a receive from the channel with the identity of the stream (`Task.receiver`): the buses,
the wakers that are called and what is told of it are the same, and both come to an item, or find
nothing yet, or find that the channel is gone (`Sound.polledStream`). Only the failure is recorded
for the stream, and not for the receive.

A stream that has ended does not enter the bus any more (`Sound.step_of_ended`).
-/

namespace MessageBus

/-- What a poll for the next message comes to. -/
inductive Yield where
  | item (m : Message)
  | pending
  | ended
deriving DecidableEq, Repr

/-- What a poll came to, by the frame with which the task goes on. -/
def Frame.yield? : Frame → Option Yield
  | .receive _ (some m) => some (.item m)
  | .receive _ none => some .ended
  | .suspend _ => some .pending
  | .complete _ .notYet => some .pending
  | .complete _ (.granted (.message m)) => some (.item m)
  | .complete _ (.refused _) => some .ended
  | _ => none

/-- A task that is in a receive from one channel, or is about to begin it if it has no place. -/
def Task.receiver (b : Nat) (a : Address) (place : Option Place) : Task where
  program := [⟨b, .recvFrom a.handle⟩]
  stopsOnError := false
  remembered := some a.id
  life := .running
  progress :=
    match place with
    | none => .fresh
    | some p => .calling b (.recv a) (some p) false

theorem Task.yield?_ifPending (task : Task) (w : Waker) :
    (task.ifPending w).yield? = some .pending := by
  rw [ifPending]
  split <;> rfl

theorem Task.callPlace_receiver (b : Nat) (a : Address) (place : Option Place) :
    (receiver b a place).callPlace = place.map (b, ·) := by
  cases place <;> rfl

namespace Request

variable {ω : Type} {r : Registry ω} {a : Address} {prior : Option Place} {k : ω}

/-- What comes of a look at a receive: the channel has a message for it or not, or is gone. -/
inductive Receipt (r : Registry ω) (a : Address) (prior : Option Place) : Turn → Prop where
  | item {m : Message} {c : Channel ω} (found : r.find? a = some c)
      (out : ∀ p ∈ prior, r.isQueued p = false) : Receipt r a prior (.finished (.ok (.message m)))
  | parked {c : Channel ω} (found : r.find? a = some c) (out : ∀ p ∈ prior, r.isQueued p = false) :
    Receipt r a prior (.parked (.recv a) ⟨a, .receivers, ⟨r.nextTicket⟩⟩)
  | waiting {p : Place} {c : Channel ω} (found : r.find? a = some c) (place : prior = some p)
      (queued : r.isQueued p = true) : Receipt r a prior .waiting
  | gone (gone : r.find? a = none) : Receipt r a prior (.finished (.error .noSuchChannel))

/-- A receive that is granted brings a message. -/
theorem message_of_attempt {o : Outcome (Registry ω) ω Attempt} {v : Value}
    (ran : (recv a).attempt r = .ok o) (granted : o.answer = .finished (.ok v)) :
    ∃ m, v = .message m := by
  obtain ⟨p, -, rfl⟩ := Outcome.of_map_eq_ok ran
  rw [Outcome.answer_map] at granted
  cases taken : p.answer with
  | error e =>
    rw [taken] at granted
    cases e <;> cases granted
  | ok m =>
    rw [taken] at granted
    cases granted
    exact ⟨m, rfl⟩

theorem receipt_of_look {o : Outcome (Registry ω) ω Turn} (fits : ∀ p ∈ prior, (recv a).Fits p)
    (ran : (recv a).look r prior k = .ok o) : Receipt r a prior o.answer := by
  have ends := ends_of_look ran
  generalize o.answer = turn, o.state = state, o.woken = woken at ends
  cases ends with
  | @tried _ tried result out attempts answer =>
    obtain ⟨o', attempts', fares⟩ := (recv a).attempt_fares r
    cases attempts.symm.trans attempts'
    generalize tried.state = r' at fares
    rw [answer] at fares
    cases fares with
    | granted granted =>
      cases granted with
      | recv found _ =>
        obtain ⟨m, rfl⟩ := message_of_attempt attempts answer
        exact .item found out
    | groundless none => exact .gone none
  | parked out blocked found _ =>
    cases blocked with
    | recv found _ => exact .parked found out
  | @waiting p queued =>
    obtain ⟨c, found, -⟩ := Registry.exists_of_isQueued queued
    rw [(fits p rfl).2 a rfl] at found
    exact .waiting found rfl queued
  | @gone p gone => exact .gone ((fits p rfl).2 a rfl ▸ gone)

end Request

namespace Executor

variable {u : Usage} {x y : Executor} {w : Waker} {task : Task} {rest : List Frame} {s : Stream}
  {id : ChannelId}

/-- What the poll came to that was made in the last step. -/
def yield? (x : Executor) : Option Yield := x.stack.findSome? (·.yield?)

/-- The executor in which another task stands in the place of a task. -/
def standIn (x : Executor) (t : Nat) (task : Task) : Executor :=
  { x with tasks := x.tasks.set t task }

/-! ### Looking for the next item -/

/-- A task that is at its stream goes on by looking for the next item. -/
theorem proceed_of_atStream (atStream : task.IsAtStream) (w : Waker) :
    x.proceed w task = x.pollStream w task := by
  rw [proceed]
  rcases atStream with ⟨fresh, looks⟩ | ⟨items, collecting⟩
  · rw [fresh]
    rw [Task.looksAtStream] at looks
    split at looks
    · rename_i current
      simp only [current, start]
    · rename_i current
      simp only [current, start]
    · rename_i current
      simp only [current, start]
    · cases looks
  · rw [collecting]

theorem step_of_atStream (stack : x.stack = .proceed w :: rest)
    (found : x.tasks[w.task]? = some task) (atStream : task.IsAtStream) :
    x.step = ({ x with stack := rest } : Executor).pollStream w task := by
  have found' : ({ x with stack := rest } : Executor).tasks[w.task]? = some task := found
  rw [step_of_stack_cons stack, perform, withTask_of_found found', proceed_of_atStream atStream]

/-- A stream that has ended comes to its end at every poll, and nothing else happens. -/
theorem step_of_ended (stack : x.stack = .proceed w :: rest)
    (found : x.tasks[w.task]? = some task) (atStream : task.IsAtStream)
    (stream : task.stream = some s) (ended : s.id = none) :
    x.step = { x with stack := .receive w none :: rest } := by
  rw [step_of_atStream stack found atStream, pollStream, stream]
  simp only [ended]
  rfl

theorem tell_standIn (x : Executor) (t : Nat) (task : Task) (notes : List Note) :
    (x.standIn t task).tell notes = (x.tell notes).standIn t task := by
  have one (x : Executor) (n : Note) :
      (x.standIn t task).tellOne n = (x.tellOne n).standIn t task := by
    rw [tellOne, tellOne]
    cases n.trace <;> rfl
  induction notes generalizing x with
  | nil => rfl
  | cons n notes ih =>
    show ((x.standIn t task).tellOne n).tell notes = _
    rw [one, ih]
    rfl

/-- A task that receives goes on by looking at its receive. -/
theorem proceed_receiver (x : Executor) (w : Waker) (b : Nat) (a : Address)
    (place : Option Place) :
    x.proceed w (.receiver b a place) =
      x.access b (fun r => (Request.recv a).look r place w) (takeTurn w b false) := by
  cases place <;> rfl

/-- A stream that has not ended is polled by one access, which is that of a receive. -/
theorem Sound.steps_of_stream (sound : x.Sound u) (stack : x.stack = .proceed w :: rest)
    (found : x.tasks[w.task]? = some task) (atStream : task.IsAtStream)
    (stream : task.stream = some s) (known : s.id = some id) :
    ∃ o told, (Request.recv ⟨s.handle, id⟩).look (x.registry s.bus) s.place w = .ok o ∧
      ({ x with stack := rest } : Executor).Entering s.bus o.state told ∧
      x.step = (takeStreamTurn w s (task.ifPending w) o.answer told).push
        [.release s.bus, .wake o.woken, .tell o.afterwards] ∧
      (x.standIn w.task (.receiver s.bus ⟨s.handle, id⟩ s.place)).step =
        (takeTurn w s.bus false o.answer
          (told.standIn w.task (.receiver s.bus ⟨s.handle, id⟩ s.place))).push
            [.release s.bus, .wake o.woken, .tell o.afterwards] := by
  obtain ⟨o, ran, inside, -⟩ := sound.leads_of_streamLook stack found atStream stream known
  obtain ⟨bus, there, free, registry⟩ :=
    exists_bus inside (sound.calm stack (fun _ => Frame.noConfusion) s.bus)
  rw [← registry] at ran
  let taken : Executor := { x with stack := rest }
  let entered : Executor := { taken with buses := x.buses.set s.bus ⟨o.state, true⟩ }
  let other : Task := .receiver s.bus ⟨s.handle, id⟩ s.place
  obtain ⟨buses, tasks, stack'⟩ := entered.tell_same o.notes
  refine ⟨o, entered.tell o.notes, registry ▸ ran,
    ⟨buses, tasks, stack', lastError_tell entered o.notes⟩, ?_, ?_⟩
  · rw [step_of_atStream stack found atStream, pollStream, stream]
    cases place : s.place with
    | none =>
      rw [place] at ran
      simp only [known, place]
      exact access_of_ran (x := taken)
        (f := fun r => (Request.recv ⟨s.handle, id⟩).look r none w) there free ran _
    | some p =>
      rw [place] at ran
      simp only [known, place]
      exact access_of_ran (x := taken)
        (f := fun r => (Request.recv ⟨s.handle, id⟩).look r (some p) w) there free ran _
  · have inTasks := (List.getElem?_eq_some_iff.1 found).1
    have found' : (taken.standIn w.task other).tasks[w.task]? = some other :=
      List.getElem?_set_self inTasks
    have stack'' : (x.standIn w.task other).stack = .proceed w :: rest := stack
    show (x.standIn w.task other).step = _
    rw [step_of_stack_cons stack'', perform]
    show (taken.standIn w.task other).withTask w.task _ = _
    have entersToo := access_of_ran (x := taken.standIn w.task other)
      (f := fun r => (Request.recv ⟨s.handle, id⟩).look r s.place w) there free ran
      (takeTurn w s.bus false)
    rw [withTask_of_found found', ← tell_standIn]
    exact (proceed_receiver _ w s.bus ⟨s.handle, id⟩ s.place).trans entersToo

/-! ### What a poll comes to -/

theorem yield?_of_access {y : Yield} {b : Nat} {wakers : List Waker} {notes : List Note} {f : Frame}
    (stack : x.stack = .release b :: .wake wakers :: .tell notes :: f :: rest)
    (yields : f.yield? = some y) : x.yield? = some y := by
  rw [yield?, stack, List.findSome?_cons, List.findSome?_cons, List.findSome?_cons,
    List.findSome?_cons, yields]
  rfl

/-- Two executors in which the same happened, but that they differ in a task and its next frame. -/
structure Agrees (y z : Executor) : Prop where
  buses : y.buses = z.buses
  frames : y.stack.take 3 = z.stack.take 3
  ready : y.ready = z.ready
  log : y.log = z.log
  telemetry : y.telemetry = z.telemetry
  yield? : y.yield? = z.yield?

/-- What a poll of a stream with an identity comes to, beside that of a task in the receive. -/
structure PolledStream (x : Executor) (w : Waker) (task : Task) (s : Stream) (id : ChannelId)
    (y : Yield) (place : Option Place) : Prop where
  yields : x.step.yield? = some y
  agrees : Agrees x.step (x.standIn w.task (.receiver s.bus ⟨s.handle, id⟩ s.place)).step
  slot : x.step.lastError = if y = .ended then BusError.noSuchChannel.code else x.lastError
  keeps : x.step.tasks[w.task]? = some { task with
    stream := some ⟨s.bus, s.handle, if y = .ended then none else some id, place⟩ }
  receives : (x.standIn w.task (.receiver s.bus ⟨s.handle, id⟩ s.place)).step.tasks[w.task]? =
    some (.receiver s.bus ⟨s.handle, id⟩ place)
  pending : place.isSome = true ↔ y = .pending
  ended : y = .ended ↔ (x.registry s.bus).find? ⟨s.handle, id⟩ = none
  /-- The old place is left only when it is not queued any more. -/
  leaves : ∀ p, s.place = some p → (x.registry s.bus).isQueued p = true → place = some p

/-- A poll of a stream that has not ended comes to what a receive comes to in its place. -/
theorem Sound.polledStream (sound : x.Sound u) (stack : x.stack = .proceed w :: rest)
    (found : x.tasks[w.task]? = some task) (atStream : task.IsAtStream)
    (stream : task.stream = some s) (known : s.id = some id)
    (fits : ∀ p ∈ s.place, (Request.recv ⟨s.handle, id⟩).Fits p) :
    ∃ y place, x.PolledStream w task s id y place := by
  obtain ⟨o, told, ran, entering, step, step'⟩ :=
    sound.steps_of_stream stack found atStream stream known
  have receipt := Request.receipt_of_look fits ran
  have inside := (List.getElem?_eq_some_iff.1 found).1
  have found' : told.tasks[w.task]? = some task := by
    rw [entering.tasks]
    exact found
  have keeps (change : Task → Task) : (told.tasks.modify w.task change)[w.task]? =
      some (change task) := by
    rw [List.getElem?_modify_eq, found']
    rfl
  have receives (change : Task → Task) (task : Task) :
      ((told.tasks.set w.task task).modify w.task change)[w.task]? = some (change task) := by
    rw [List.getElem?_modify_eq, List.getElem?_set_self (entering.tasks ▸ inside)]
    rfl
  have pending := task.yield?_ifPending w
  obtain ⟨b, h, i, was⟩ := s
  obtain rfl : i = some id := known
  generalize answer : o.answer = turn at step step' receipt
  cases receipt with
  | @item m c there out =>
    refine ⟨.item m, none, ?_⟩
    constructor
    case agrees => rw [step, step']; exact ⟨rfl, rfl, rfl, rfl, rfl, rfl⟩
    case yields => rw [step]; rfl
    case slot => rw [step]; exact entering.slot
    case keeps => rw [step]; exact keeps _
    case receives => rw [step']; exact receives _ _
    case pending => simp
    case ended => simp [there]
    case leaves => exact fun p place queued => nomatch (out p place).symm.trans queued
  | @parked c there out =>
    refine ⟨.pending, some ⟨⟨h, id⟩, .receivers, ⟨(x.registry b).nextTicket⟩⟩, ?_⟩
    have yields : x.step.yield? = some .pending :=
      yield?_of_access (congrArg Executor.stack step) pending
    constructor
    case agrees =>
      have yields' := yield?_of_access (congrArg Executor.stack step') (y := .pending) rfl
      refine ⟨?_, ?_, ?_, ?_, ?_, yields.trans yields'.symm⟩ <;> rw [step, step'] <;> rfl
    case yields => exact yields
    case slot => rw [step]; exact entering.slot
    case keeps => rw [step]; exact keeps _
    case receives => rw [step']; exact receives _ _
    case pending => simp
    case ended => simp [there]
    case leaves => exact fun p place queued => nomatch (out p place).symm.trans queued
  | @waiting p c there place queued =>
    obtain rfl : was = some p := place
    refine ⟨.pending, some p, ?_⟩
    have yields : x.step.yield? = some .pending :=
      yield?_of_access (congrArg Executor.stack step) pending
    constructor
    case agrees =>
      have yields' := yield?_of_access (congrArg Executor.stack step') (y := .pending) rfl
      refine ⟨?_, ?_, ?_, ?_, ?_, yields.trans yields'.symm⟩ <;> rw [step, step'] <;> rfl
    case yields => exact yields
    case slot => rw [step]; exact entering.slot
    case keeps =>
      rw [step]
      refine found'.trans (congrArg some ?_)
      rw [if_neg nofun, ← stream]
    case receives =>
      rw [step']
      exact List.getElem?_set_self (entering.tasks ▸ inside)
    case pending => simp
    case ended => simp [there]
    case leaves => exact fun p place _ => place
  | gone gone =>
    refine ⟨.ended, none, ?_⟩
    constructor
    case agrees => rw [step, step']; exact ⟨rfl, rfl, rfl, rfl, rfl, rfl⟩
    case yields => rw [step]; rfl
    case slot => rw [step]; rfl
    case keeps => rw [step]; exact keeps _
    case receives => rw [step']; exact receives _ _
    case pending => simp
    case ended => simpa using gone
    case leaves =>
      intro p place queued
      obtain ⟨c, there, -⟩ := Registry.exists_of_isQueued queued
      rw [(fits p place).2 _ rfl] at there
      cases gone.symm.trans there

/-- Every poll of a stream comes to something. -/
theorem Sound.exists_yield (sound : x.Sound u) (stack : x.stack = .proceed w :: rest)
    (found : x.tasks[w.task]? = some task) (atStream : task.IsAtStream)
    (stream : task.stream = some s)
    (fits : ∀ id, s.id = some id → ∀ p ∈ s.place, (Request.recv ⟨s.handle, id⟩).Fits p) :
    ∃ y, x.step.yield? = some y := by
  cases known : s.id with
  | none =>
    rw [step_of_ended stack found atStream stream known]
    exact ⟨.ended, rfl⟩
  | some id =>
    obtain ⟨y, _, polled⟩ := sound.polledStream stack found atStream stream known (fits id known)
    exact ⟨y, polled.yields⟩

end Executor

end MessageBus
