import MessageBus.Proofs.Turns

/-!
# Requests in a turn

A task looks at its own request, or at the receive of its stream. Both are one access, in which the
request is granted, fails, parks or is left waiting, and the task keeps its new place by the end of
it.
-/

namespace MessageBus

/-- What a task keeps after a turn of its request. -/
def Turn.leaves (bus : Nat) (recorded : Bool) (task : Task) : Turn → Task
  | .finished _ => { task with progress := .fresh }
  | .parked q p => { task with progress := .calling bus q (some p) recorded }
  | .waiting => task
  | .again q => { task with progress := .calling bus q none recorded }

/-- How a task goes on after a turn of its request. -/
def Turn.frame (w : Waker) : Turn → Frame
  | .finished result => .complete (.task w) (.ofResult result)
  | .parked _ _ => .suspend w.task
  | .waiting => .suspend w.task
  | .again _ => .proceed w

/-- What a task keeps after a turn of its stream `s`. -/
def Turn.leavesStream (s : Stream) (task : Task) : Turn → Task
  | .finished (.ok _) => { task with stream := some { s with place := none } }
  | .finished (.error _) => { task with stream := some { s with id := none, place := none } }
  | .parked _ p => { task with stream := some { s with place := some p } }
  | _ => task

/-- How a task goes on after a turn of its stream. -/
def Turn.streamFrame (w : Waker) (ifPending : Frame) : Turn → Frame
  | .finished (.ok v) => .receive w v.message?
  | .finished (.error _) => .receive w none
  | .parked _ _ => ifPending
  | .waiting => ifPending
  | .again _ => .proceed w

/-- How a task goes on while its stream has nothing for it. -/
def Task.ifPending (w : Waker) (task : Task) : Frame :=
  match task.current? with
  | some ⟨_, .tryNext⟩ => .complete (.task w) .notYet
  | _ => .suspend w.task

theorem Task.turn_ifPending (task : Task) (w : Waker) :
    (task.ifPending w).turn? = some w.task := by
  rw [ifPending]
  split <;> rfl

theorem Task.ifPending_suits (task : Task) (w : Waker) {n : Nat} {task' : Task}
    (free : task'.callPlace = none) : (task.ifPending w).Suits n task' := by
  rw [ifPending]
  split
  · exact free
  · trivial

/-- A turn of a request whose new place, if it took one, is for this request. -/
def Turn.IsOf (q : Request) : Turn → Prop
  | .parked q' _ => q' = q
  | .again _ => False
  | _ => True

theorem Request.Looked.isOf {ω : Type} {q : Request} {r r' : Registry ω} {k : ω}
    {prior : Option Place} {turn : Turn} (looked : q.Looked r k prior turn r') : turn.IsOf q := by
  cases looked with
  | pursued _ pursued => cases pursued <;> trivial
  | waiting _ => trivial
  | gone _ => trivial

/-- A request holds its stays on its own bus, beside those of the stream. -/
theorem Task.staysOn_leaves {task : Task} {b : Nat} {q : Request} {prior : Option Place}
    (holds : task.callStay = prior.map fun p => (b, ⟨some q, p⟩)) (recorded : Bool) {turn : Turn}
    (isOf : turn.IsOf q) : (turn.leaves b recorded task).staysOn b =
      turn.stays q prior ++ staysIn b task.streamStay := by
  cases turn with
  | finished _ => rfl
  | parked q' p => exact congrArg (· ++ _) (staysIn_self b _)
  | waiting => rw [Turn.leaves, staysOn, holds, staysIn_map_stays, Turn.stays]
  | again _ => exact isOf.elim

theorem Task.staysOn_leaves_of_ne {task : Task} {b b' : Nat} (other : b' ≠ b) {q : Request}
    {prior : Option Place} (holds : task.callStay = prior.map fun p => (b, ⟨some q, p⟩))
    (recorded : Bool) (turn : Turn) :
    (turn.leaves b recorded task).staysOn b' = task.staysOn b' := by
  rw [staysOn, staysOn, holds, staysIn_map_of_ne (Ne.symm other)]
  cases turn with
  | finished _ => rfl
  | parked q' p => exact congrArg (· ++ _) (staysIn_of_ne (Ne.symm other) _)
  | waiting => rw [Turn.leaves, holds, staysIn_map_of_ne (Ne.symm other)]
  | again _ => rfl

theorem Task.keeps_leaves {u : Usage} {n : Nat} {task : Task} (sound : task.Sound u n) {b : Nat}
    (inside : b < n) {q : Request} (permitted : u.permits (some q)) (recorded : Bool) {turn : Turn}
    (isOf : turn.IsOf q) : task.Keeps u n (turn.leaves b recorded task) := by
  cases turn with
  | finished _ => exact ⟨⟨sound.program, trivial, sound.stream⟩, rfl⟩
  | parked q' p =>
    cases isOf
    exact ⟨⟨sound.program, ⟨inside, permitted⟩, sound.stream⟩, rfl⟩
  | waiting => exact ⟨sound, rfl⟩
  | again _ => exact isOf.elim

/-- The stay of a stream that has not ended is that of its receive. -/
theorem Task.streamStay_of_id {task : Task} {s : Stream} {id : ChannelId}
    (stream : task.stream = some s) (known : s.id = some id) : task.streamStay =
      s.place.map fun p => (s.bus, ⟨some (.recv ⟨s.handle, id⟩), p⟩) := by
  rw [streamStay, stream, Option.bind_some, known]
  rfl

theorem Task.staysOn_leavesStream {task : Task} {s : Stream} {id : ChannelId}
    (settled : task.callStay = none) (stream : task.stream = some s) (known : s.id = some id)
    {turn : Turn} (isOf : turn.IsOf (.recv ⟨s.handle, id⟩)) :
    (turn.leavesStream s task).staysOn s.bus = turn.stays (.recv ⟨s.handle, id⟩) s.place := by
  have settled' : (turn.leavesStream s task).callStay = none := by
    rcases turn with ⟨_ | _⟩ | _ | _ | _ <;> exact settled
  rw [staysOn_of_callStay settled']
  cases turn with
  | finished result => cases result <;> rfl
  | parked q p =>
    cases isOf
    rw [streamStay_of_id (s := { s with place := some p }) rfl known]
    exact staysIn_self _ _
  | waiting =>
    have holds := streamStay_of_id stream known
    exact (congrArg (staysIn s.bus) holds).trans (staysIn_map_stays _ _ _)
  | again _ => exact isOf.elim

theorem Task.staysOn_leavesStream_of_ne {task : Task} {s : Stream} {b : Nat} (other : b ≠ s.bus)
    (stream : task.stream = some s) (turn : Turn) :
    (turn.leavesStream s task).staysOn b = task.staysOn b := by
  have elsewhere (s' : Stream) (bus : s'.bus = s.bus) :
      staysIn b { task with stream := some s' }.streamStay = staysIn b task.streamStay := by
    rw [streamStay, streamStay, stream, Option.bind_some, Option.bind_some, bus,
      staysIn_map_of_ne (Ne.symm other), staysIn_map_of_ne (Ne.symm other)]
  rw [staysOn, staysOn]
  cases turn with
  | finished result =>
    cases result <;> exact congrArg (staysIn b task.callStay ++ ·) (elsewhere _ rfl)
  | parked _ _ => exact congrArg (staysIn b task.callStay ++ ·) (elsewhere _ rfl)
  | _ => rfl

theorem Task.keeps_leavesStream {u : Usage} {n : Nat} {task : Task} (sound : task.Sound u n)
    {s : Stream} (inside : s.bus < n) (turn : Turn) :
    task.Keeps u n (turn.leavesStream s task) := by
  have replaced (s' : Stream) (bus : s'.bus = s.bus) :
      task.Keeps u n { task with stream := some s' } := by
    refine ⟨⟨sound.program, sound.progress, fun s'' same => ?_⟩, rfl⟩
    cases same
    rw [bus]
    exact inside
  cases turn with
  | finished result => cases result <;> exact replaced _ rfl
  | parked _ _ => exact replaced _ rfl
  | _ => exact ⟨sound, rfl⟩

namespace Executor

variable {u : Usage} {resumed : Nat → Request → Place → Prop} {x : Executor} {b : Nat} {w : Waker}
  {task : Task} {f : Frame} {rest : List Frame} {q : Request} {prior : Option Place}
  {held : List Stay}

theorem does_takeTurn (w : Waker) (bus : Nat) (recorded : Bool) (turn : Turn) :
    Does (takeTurn w bus recorded turn) w.task (turn.leaves bus recorded) [turn.frame w] := by
  intro x
  cases turn with
  | finished result => cases recorded <;> exact ⟨rfl, rfl, rfl⟩
  | waiting => exact ⟨rfl, (List.modify_id _ _).symm, rfl⟩
  | _ => exact ⟨rfl, rfl, rfl⟩

theorem does_takeStreamTurn (w : Waker) (s : Stream) (ifPending : Frame) (turn : Turn) :
    Does (takeStreamTurn w s ifPending turn) w.task (turn.leavesStream s)
      [turn.streamFrame w ifPending] := by
  intro x
  cases turn with
  | finished result => cases result <;> exact ⟨rfl, rfl, rfl⟩
  | parked _ _ => exact ⟨rfl, rfl, rfl⟩
  | _ => exact ⟨rfl, (List.modify_id _ _).symm, rfl⟩

namespace InTurn

/-- The stays of the task are in balance with its bus. -/
theorem fits (turn : x.InTurn u f w.task task rest)
    (stays : task.staysOn b = q.stays prior ++ held) : ∀ p ∈ prior, q.Fits p := by
  have bal := (turn.sound.balanced b).perm (x.staysOn_perm turn.found b)
  rw [stays, List.append_assoc] at bal
  exact Registry.stays_fit bal

/-- A task looks at its request. -/
theorem looks (turn : x.InTurn u f w.task task rest) (q : Request) (prior : Option Place)
    (inside : b < x.buses.length) (permitted : u.permits (some q))
    (holds : task.callStay = prior.map fun p => (b, ⟨some q, p⟩)) (recorded : Bool)
    (again : ∀ p ∈ prior, q.side = .senders → resumed b q p)
    {g : Registry Waker → Except Fault (Outcome (Registry Waker) Waker Turn)}
    {o : Outcome (Registry Waker) Waker Turn} (ran : g (x.registry b) = .ok o)
    (looked : q.Looked (x.registry b) w prior o.answer o.state) :
    (turn.after.access b g (takeTurn w b recorded)).Sound u ∧
      Goes u resumed x (turn.after.access b g (takeTurn w b recorded)) := by
  have stays : task.staysOn b = q.stays prior ++ staysIn b task.streamStay := by
    rw [Task.staysOn, holds, staysIn_map_stays]
  have isOf := looked.isOf
  refine turn.access [] inside ran (does_takeTurn w b recorded o.answer)
    (List.forall_mem_nil _) ?_ ?_
    (Task.keeps_leaves turn.task_sound inside permitted recorded isOf) (fun held => ?_)
    (fun b' other => Task.staysOn_leaves_of_ne other holds recorded o.answer)
  · cases o.answer <;> rfl
  · cases o.answer <;> first | rfl | trivial
  · rw [stays, Task.staysOn_leaves holds recorded isOf, List.append_assoc, List.append_assoc]
    exact looked.moves permitted (turn.fits stays) again

/-- A turn goes on with the reply to its instruction. -/
theorem replies (turn : x.InTurn u f w.task task rest) (settled : task.callStay = none)
    (reply : Reply) : (turn.after.push [.complete (.task w) reply]).Sound u ∧
      Goes u resumed x (turn.after.push [.complete (.task w) reply]) :=
  turn.alone [] (does_push w.task [.complete (.task w) reply]) (List.forall_mem_nil _)
    rfl (Task.callPlace_eq_none settled) ⟨turn.task_sound, rfl⟩ fun _ => rfl

/-- A stream looks at its receive, which has a place or not. -/
theorem receives (turn : x.InTurn u f w.task task rest) (settled : task.callStay = none)
    {s : Stream} {id : ChannelId} (stream : task.stream = some s) (known : s.id = some id)
    {ifPending : Frame} (own : ifPending.turn? = some w.task)
    (suits : ∀ task' : Task, task'.callPlace = none → ifPending.Suits x.buses.length task')
    {g : Registry Waker → Except Fault (Outcome (Registry Waker) Waker Turn)}
    (same : ∀ r, g r = (Request.recv ⟨s.handle, id⟩).look r s.place w) :
    (turn.after.access s.bus g (takeStreamTurn w s ifPending)).Sound u ∧
      Goes u resumed x (turn.after.access s.bus g (takeStreamTurn w s ifPending)) := by
  have free := Task.callPlace_eq_none settled
  have inside := turn.task_sound.stream s stream
  obtain ⟨o, ran, looked⟩ := Request.look_looked (turn.sound.balanced s.bus)
    (.recv ⟨s.handle, id⟩) s.place w
  have stays : task.staysOn s.bus = Request.stays (.recv ⟨s.handle, id⟩) s.place ++ [] := by
    rw [Task.staysOn_of_callStay settled, Task.streamStay_of_id stream known,
      staysIn_map_stays, List.append_nil]
  refine turn.access [] inside ((same _).trans ran) (does_takeStreamTurn w s ifPending o.answer)
    (List.forall_mem_nil _) ?_ ?_
    (Task.keeps_leavesStream turn.task_sound inside o.answer) (fun held => ?_)
    (fun b' other => Task.staysOn_leavesStream_of_ne other stream o.answer)
  · rcases o.answer with ⟨_ | _⟩ | _ | _ | _ <;> first | rfl | exact own
  · rcases o.answer with ⟨_ | _⟩ | _ | _ | _ <;> first | exact free | exact suits _ free | trivial
  · rw [stays, Task.staysOn_leavesStream settled stream known looked.isOf, List.append_nil]
    exact looked.moves trivial (turn.fits stays) fun p _ sends => by cases sends

/-- A task looks for the next item of its stream. -/
theorem pollsStream (turn : x.InTurn u f w.task task rest) (settled : task.callStay = none) :
    (turn.after.pollStream w task).Sound u ∧ Goes u resumed x (turn.after.pollStream w task) := by
  have free := Task.callPlace_eq_none settled
  cases stream : task.stream with
  | none =>
    rw [pollStream, stream]
    exact turn.replies settled _
  | some s =>
    have own := task.turn_ifPending w
    have suits (task' : Task) (free : task'.callPlace = none) :
        (task.ifPending w).Suits x.buses.length task' := task.ifPending_suits w free
    obtain ⟨bus, handle, id, place⟩ := s
    rw [pollStream, stream]
    rcases id with _ | id
    · exact turn.alone [] (does_push w.task [.receive w none]) (List.forall_mem_nil _) rfl
        free ⟨turn.task_sound, rfl⟩ fun _ => rfl
    · cases place with
      | none => exact turn.receives settled stream rfl own suits fun r => rfl
      | some p => exact turn.receives settled stream rfl own suits fun r => rfl

/-- A stream takes the place of the old one, which gives up its place. -/
theorem replaces (turn : x.InTurn u f w.task task rest) (settled : task.callStay = none)
    {stream : Option Stream} (fresh : ∀ s ∈ stream, s.bus < x.buses.length ∧ s.place = none)
    {next : Frame} (own : next.turn? = some w.task)
    (suits : next.Suits x.buses.length { task with stream }) :
    (turn.after.replaceStream w.task stream [next]).Sound u ∧
      Goes u resumed x (turn.after.replaceStream w.task stream [next]) := by
  have sound := turn.task_sound
  have keeps : task.Keeps u x.buses.length { task with stream } :=
    ⟨⟨sound.program, sound.progress, fun s member => (fresh s member).1⟩, rfl⟩
  have none' : ({ task with stream } : Task).streamStay = none := by
    rw [Task.streamStay]
    cases stream with
    | none => rfl
    | some s =>
      rw [Option.bind_some, (fresh s rfl).2]
      rfl
  have after (b : Nat) : ({ task with stream } : Task).staysOn b = [] := by
    rw [Task.staysOn, none', staysIn_none, List.append_nil]
    exact congrArg (staysIn b) settled
  have does : Does (fun x => (x.modifyTask w.task ({ · with stream })).push [next]) w.task
      ({ · with stream }) ([] ++ [next]) := fun x => ⟨rfl, rfl, rfl⟩
  have found : turn.after.tasks[w.task]? = some task := turn.found
  rw [replaceStream, found, Option.bind_some, ← Task.map_place_streamStay]
  cases holds : task.streamStay with
  | none =>
    refine turn.alone [] does (List.forall_mem_nil _) own suits keeps fun b => ?_
    rw [after b, Task.staysOn_of_callStay settled, holds, staysIn_none]
  | some held =>
    obtain ⟨b, s⟩ := held
    have inside := Task.inside_of_streamStay sound holds
    have free : turn.after.isInUse b = false := turn.calm b
    simp only [Option.map_some, giveUp, free, Bool.false_eq_true, ite_false]
    refine turn.access [] inside rfl does (List.forall_mem_nil _) own suits keeps
      (fun held => ?_) (fun b' other => ?_)
    · rw [after b, Task.staysOn_of_callStay settled, holds, staysIn_self]
      exact .abandoned
    · rw [after b', Task.staysOn_of_callStay settled, holds, staysIn_of_ne (Ne.symm other)]

end InTurn

end Executor

end MessageBus
