import MessageBus.Proofs.Requests

/-!
# Instructions in a turn

Whatever instruction a task begins or goes on with, its turn stays in order. An instruction that is
begun holds no place yet, and its task holds one by the end of the step exactly if it went to wait.
-/

namespace MessageBus

theorem Call.permits_of_resolve {ω : Type} {u : Usage} {c : Call} {r : Registry ω} {q : Request}
    (allowed : u.allows (.call c)) (resolved : c.resolve r = .ok q) : u.permits (some q) := by
  cases c with
  | broadcast m =>
    cases resolved
    exact allowed
  | _ h =>
    simp only [resolve] at resolved
    cases found : r.resolve h with
    | error e => simp [found, Except.map] at resolved
    | ok a =>
      simp only [found, Except.map, Except.ok.injEq] at resolved
      subst resolved
      trivial

namespace Executor

variable {α : Type} {u : Usage} {resumed : Nat → Request → Place → Prop} {x : Executor} {b : Nat}
  {w : Waker} {task : Task} {f next : Frame} {asides rest : List Frame}

namespace InTurn

/-- The turn goes on with an access after which the task holds what it held. -/
theorem enters (turn : x.InTurn u f w.task task rest) (asides : List Frame)
    {g : Registry Waker → Except Fault (Outcome (Registry Waker) Waker α)}
    {o : Outcome (Registry Waker) Waker α} {after : α → Executor → Executor}
    {change : Task → Task} (inside : b < x.buses.length) (ran : g (x.registry b) = .ok o)
    (does : Does (after o.answer) w.task change (asides ++ [next]))
    (aside : ∀ g ∈ asides, g.IsAside) (own : next.turn? = some w.task)
    (suits : next.Suits x.buses.length (change task))
    (keeps : task.Keeps u x.buses.length (change task))
    (stays : ∀ b, (change task).staysOn b = task.staysOn b)
    (moves : ∀ held, (x.registry b).Moves u (resumed b) held o.state held) :
    (turn.after.access b g after).Sound u ∧ Goes u resumed x (turn.after.access b g after) :=
  turn.access asides inside ran does aside own suits keeps
    (fun _ => (stays b).symm ▸ moves _) fun b' _ => stays b'

/-- A task that is idle is dropped. -/
theorem drops (turn : x.InTurn u f w.task task rest) (settled : task.callStay = none) (t : Nat)
    (reply : Bool → Reply) :
    (turn.after.dropTask t fun dropped => [.complete (.task w) (reply dropped)]).Sound u ∧
      Goes u resumed x
        (turn.after.dropTask t fun dropped => [.complete (.task w) (reply dropped)]) := by
  rw [dropTask]
  cases found : turn.after.tasks[t]? with
  | none => exact turn.replies settled _
  | some other =>
    cases idle : other.isIdle
    · simp only [idle, Bool.false_eq_true, ite_false]
      exact turn.replies settled _
    · simp only [idle, ite_true]
      have found : x.tasks[t]? = some other := found
      have idle : other.life = .idle := by simpa [Task.isIdle] using idle
      have apart : t ≠ w.task := by
        rintro rfl
        cases found.symm.trans turn.found
        cases turn.running.symm.trans idle
      have tasks : x.tasks.modify t ({ · with life := .ended }) =
          x.tasks.set t { other with life := .ended } := modify_of_getElem? found _
      have sound := turn.sound.tasks other (List.mem_of_getElem? found)
      refine turn.sound.change (y := (turn.after.modifyTask t ({ · with life := .ended })).push
        [.vacate t, .complete (.task w) (reply true)]) turn.calm found tasks
        (.alone rfl fun b => rfl) ⟨sound.program, sound.progress, sound.stream⟩
        (fun _ => .inr List.mem_cons_self) (fun t' _ vacate => ?_) (.inl ?_)
      · have later := turn.vacates vacate
        exact List.mem_cons_of_mem _ (List.mem_cons_of_mem _ (List.mem_cons_of_mem _ later))
      · have idle' : .leave t ∉ rest := by
          intro begun
          obtain ⟨other', found', running⟩ := turn.below.running begun
          cases found.symm.trans found'
          cases idle.symm.trans running
        have below : Stacked x.buses.length (x.tasks.set t { other with life := .ended }) rest :=
          turn.below.set found fun begun => absurd begun idle'
        rw [push, modifyTask, tasks]
        have found' : (x.tasks.set t { other with life := .ended })[w.task]? = some task := by
          rw [List.getElem?_set_ne apart]
          exact turn.found
        exact .aside rfl (.turn rfl found' turn.running (Task.callPlace_eq_none settled) turn.once
          below)

/-- A task carries out an action. -/
theorem acts (turn : x.InTurn u f w.task task rest) (settled : task.callStay = none)
    (inside : b < x.buses.length) (action : Action) :
    (turn.after.act b (.task w) action).Sound u ∧
      Goes u resumed x (turn.after.act b (.task w) action) := by
  have free := Task.callPlace_eq_none settled
  have sound := turn.task_sound
  cases action with
  | operate op =>
    obtain ⟨o, ran, handles⟩ := op.apply_handles (x.registry b)
    have does : Does (fun x => (x.record o.answer).push [.complete (.task w) o.answer]) w.task id
        ([] ++ [.complete (.task w) o.answer]) :=
      fun x => ⟨rfl, (List.modify_id w.task x.tasks).symm, rfl⟩
    rw [act]
    exact turn.enters [] inside ran does (List.forall_mem_nil _) rfl free ⟨sound, rfl⟩
      (fun _ => rfl) fun held => .handled handles
  | setLastError code =>
    have does : Does
        (fun x => { x with lastError := code }.push [.complete (.task w) (.plain .nothing)])
        w.task id ([] ++ [.complete (.task w) (.plain .nothing)]) :=
      fun x => ⟨rfl, (List.modify_id w.task x.tasks).symm, rfl⟩
    exact turn.alone [] does (List.forall_mem_nil _) rfl free ⟨sound, rfl⟩ fun _ => rfl
  | drop t => exact turn.drops settled t fun dropped => .plain (.flag dropped)
  | _ => exact turn.replies settled _

/-- A task begins a call. -/
theorem calls (turn : x.InTurn u f w.task task rest) (settled : task.callStay = none)
    (inside : b < x.buses.length) {c : Call} (allowed : u.allows (.call c)) :
    (turn.after.access b (fun r => c.start r w) (takeTurn w b true)).Sound u ∧
      Goes u resumed x (turn.after.access b (fun r => c.start r w) (takeTurn w b true)) := by
  cases resolved : c.resolve (x.registry b) with
  | ok q =>
    have permitted := Call.permits_of_resolve allowed resolved
    obtain ⟨o, ran, looked⟩ := Request.look_looked (turn.sound.balanced b) q none w
    have started : c.start (x.registry b) w = .ok o := by
      rw [Call.start, resolved]
      exact ran
    exact turn.looks q none inside permitted settled true (fun p none => by cases none) started
      looked
  | error e =>
    have started : c.start (x.registry b) w =
        .ok { answer := .finished (.error e), state := x.registry b } := by
      rw [Call.start, resolved]
    have sound := turn.task_sound
    refine turn.enters [] inside started (does_takeTurn w b true _)
      (List.forall_mem_nil _) rfl rfl
      ⟨⟨sound.program, trivial, sound.stream⟩, rfl⟩ (fun b' => ?_) fun held => .rest _ held
    rw [Task.staysOn, Task.staysOn, settled]
    rfl

/-- A task receives from the channel that it remembers. -/
theorem receivesFrom (turn : x.InTurn u f w.task task rest) (settled : task.callStay = none)
    (inside : b < x.buses.length) (a : Address) :
    (turn.after.access b (fun r => (Request.recv a).pursue r w) (takeTurn w b false)).Sound u ∧
      Goes u resumed x
        (turn.after.access b (fun r => (Request.recv a).pursue r w) (takeTurn w b false)) := by
  obtain ⟨o, ran, looked⟩ := Request.look_looked (turn.sound.balanced b) (.recv a) none w
  exact turn.looks (.recv a) none inside trivial settled false (fun p none => by cases none) ran
    looked

/-- A task makes a new stream, which is to take the place of the old one. -/
theorem opensStream (turn : x.InTurn u f w.task task rest) (settled : task.callStay = none)
    (inside : b < x.buses.length) (h : Handle) :
    let next (a : Option Address) (x : Executor) :=
      x.push [.adopt w ⟨b, h, a.map (·.id), none⟩]
    let resolve (r : Registry Waker) : Except Fault (Outcome (Registry Waker) Waker _) :=
      .ok { answer := (r.resolve h).toOption, state := r }
    (turn.after.access b resolve next).Sound u ∧
      Goes u resumed x (turn.after.access b resolve next) :=
  turn.enters [] inside rfl (does_push w.task _) (List.forall_mem_nil _) rfl
    ⟨Task.callPlace_eq_none settled, inside, rfl⟩ ⟨turn.task_sound, rfl⟩ (fun _ => rfl)
    fun held => .rest _ held

/-- A task remembers which channel is open under a handle. -/
theorem resolves (turn : x.InTurn u f w.task task rest) (settled : task.callStay = none)
    (inside : b < x.buses.length) (h : Handle) :
    let next (found : Except BusError Address) (x : Executor) :=
      match found with
      | .error e => x.push [.complete (.task w) (.refused e)]
      | .ok a =>
        (x.modifyTask w.task ({ · with remembered := some a.id })).push
          [.complete (.task w) (.granted (.number a.id.number))]
    let resolve (r : Registry Waker) : Except Fault (Outcome (Registry Waker) Waker _) :=
      .ok { answer := r.resolve h, state := r }
    (turn.after.access b resolve next).Sound u ∧
      Goes u resumed x (turn.after.access b resolve next) := by
  intro next resolve
  have free := Task.callPlace_eq_none settled
  have sound := turn.task_sound
  cases found : (x.registry b).resolve h with
  | error e =>
    have does : Does (next ((x.registry b).resolve h)) w.task id
        ([] ++ [.complete (.task w) (.refused e)]) := by
      rw [found]
      exact does_push w.task _
    exact turn.enters [] inside rfl does (List.forall_mem_nil _) rfl free ⟨sound, rfl⟩
      (fun _ => rfl) fun held => .rest _ held
  | ok a =>
    have does : Does (next ((x.registry b).resolve h)) w.task ({ · with remembered := some a.id })
        ([] ++ [.complete (.task w) (.granted (.number a.id.number))]) := by
      rw [found]
      exact fun x => ⟨rfl, rfl, rfl⟩
    exact turn.enters [] inside rfl does (List.forall_mem_nil _) rfl free
      ⟨⟨sound.program, sound.progress, sound.stream⟩, rfl⟩ (fun _ => rfl) fun held => .rest _ held

/-- A task begins a bare wait. -/
theorem waits (turn : x.InTurn u f w.task task rest) (settled : task.callStay = none)
    (inside : b < x.buses.length) (bare : u.bareWaits) (a : Address) (side : Side)
    (before : String) :
    let next (place : Option Place) (x : Executor) :=
      match place with
      | none => x.push [.conclude w before [] b a side (.error .noSuchChannel)]
      | some p => (x.keep w.task (.waiting b p before [])).push [.observe w.task, .suspend w.task]
    (turn.after.access b (fun r => r.park a side w) next).Sound u ∧
      Goes u resumed x (turn.after.access b (fun r => r.park a side w) next) := by
  intro next
  have sound := turn.task_sound
  cases found : (x.registry b).find? a with
  | none =>
    have parked := Registry.park_of_gone found side w
    exact turn.enters [] inside parked (does_push w.task _) (List.forall_mem_nil _) rfl
      (Task.callPlace_eq_none settled) ⟨sound, rfl⟩ (fun _ => rfl) fun held => .issued
  | some c =>
    obtain ⟨o, parked, place, state⟩ := Registry.park_of_find? (turn.sound.balanced b) found side w
    let p : Place := ⟨a, side, ⟨(x.registry b).nextTicket⟩⟩
    have does : Does (next o.answer) w.task ({ · with progress := .waiting b p before [] })
        ([.observe w.task] ++ [.suspend w.task]) := by
      rw [place]
      exact fun x => ⟨rfl, rfl, rfl⟩
    refine turn.access [.observe w.task] inside parked does (List.forall_mem_singleton.2 rfl) rfl
      trivial ⟨⟨sound.program, inside, sound.stream⟩, rfl⟩ (fun held => ?_) (fun b' other => ?_)
    · have stays : ({ task with progress := .waiting b p before [] } : Task).staysOn b =
          [⟨none, p⟩] ++ task.staysOn b := by
        rw [Task.staysOn_of_callStay settled]
        exact congrArg (· ++ _) (staysIn_self b _)
      rw [stays, state]
      exact .waits bare found
    · rw [Task.staysOn_of_callStay settled]
      exact congrArg (· ++ _) (staysIn_of_ne (Ne.symm other) _)

/-- A task looks at its bare wait. -/
theorem looksAtWait (turn : x.InTurn u f w.task task rest) {p : Place} {before : String}
    {after : List String} (waiting : task.progress = .waiting b p before after) :
    let leave (result : Except BusError Unit) (x : Executor) :=
      (x.keep w.task .fresh).push [.conclude w before after b p.address p.side result]
    let next (standing : Standing) (x : Executor) :=
      match standing with
      | .queued => x.push [.observe w.task, .suspend w.task]
      | .called => leave (.ok ()) x
      | .gone => leave (.error .noSuchChannel) x
    (turn.after.access b (fun r => .ok (r.revisit p w)) next).Sound u ∧
      Goes u resumed x (turn.after.access b (fun r => .ok (r.revisit p w)) next) := by
  intro leave next
  have sound := turn.task_sound
  have inside : b < x.buses.length := by
    have progress := sound.progress
    rw [waiting] at progress
    exact progress
  have holds : task.callStay = some (b, ⟨none, p⟩) := by rw [Task.callStay, waiting]
  -- The wait is over once its ticket is in no line.
  have ends (result : Except BusError Unit) (out : (x.registry b).isQueued p = false)
      (leaves : next ((x.registry b).revisit p w).answer = leave result)
      (state : ((x.registry b).revisit p w).state = x.registry b) :
      (turn.after.access b (fun r => .ok (r.revisit p w)) next).Sound u ∧
        Goes u resumed x (turn.after.access b (fun r => .ok (r.revisit p w)) next) := by
    have does : Does (next ((x.registry b).revisit p w).answer) w.task
        ({ · with progress := .fresh })
        ([] ++ [.conclude w before after b p.address p.side result]) := by
      rw [leaves]
      exact fun x => ⟨rfl, rfl, rfl⟩
    refine turn.access [] inside rfl does (List.forall_mem_nil _) rfl rfl
      ⟨⟨sound.program, trivial, sound.stream⟩, rfl⟩ (fun held => ?_) (fun b' other => ?_)
    · rw [state, Task.staysOn, holds, staysIn_self]
      exact .woke out
    · rw [Task.staysOn, Task.staysOn, holds, staysIn_of_ne (Ne.symm other)]
      rfl
  rcases (x.registry b).standing_cases p with queued | called | gone
  · obtain ⟨c, l, -, -, answer, -⟩ := Registry.revisit_of_queued queued w
    have does : Does (next ((x.registry b).revisit p w).answer) w.task id
        ([.observe w.task] ++ [.suspend w.task]) := by
      rw [answer]
      exact does_push w.task _
    exact turn.enters [.observe w.task] inside rfl does (List.forall_mem_singleton.2 rfl) rfl
      trivial ⟨sound, rfl⟩ (fun _ => rfl) fun held => .visited queued
  · obtain ⟨answer, state⟩ := Registry.revisit_of_called called w
    exact ends (.ok ()) (Registry.isQueued_eq_false_of_hasCalled called) (by rw [answer]) state
  · obtain ⟨answer, state⟩ := Registry.revisit_of_gone gone w
    exact ends (.error .noSuchChannel) (Registry.isQueued_eq_false_of_gone gone) (by rw [answer])
      state

/-- A task begins an instruction. -/
theorem starts (turn : x.InTurn u f w.task task rest) (fresh : task.progress = .fresh)
    {i : Instruction} (allowed : i.Sound u x.buses.length) :
    (turn.after.start w task i).Sound u ∧ Goes u resumed x (turn.after.start w task i) := by
  have settled := Task.callStay_of_fresh fresh
  have sound := turn.task_sound
  obtain ⟨inside, deed⟩ := allowed
  obtain ⟨b, deed'⟩ := i
  cases deed' with
  | act action => exact turn.acts settled inside action
  | call c => exact turn.calls settled inside deed
  | yield =>
    have does : Does (fun x => (x.keep w.task .yielded).push [.wake [w], .suspend w.task]) w.task
        ({ · with progress := .yielded }) ([.wake [w]] ++ [.suspend w.task]) :=
      fun x => ⟨rfl, rfl, rfl⟩
    refine turn.alone [.wake [w]] does (List.forall_mem_singleton.2 rfl) rfl trivial
      ⟨⟨sound.program, trivial, sound.stream⟩, rfl⟩ fun b' => ?_
    rw [Task.staysOn, Task.staysOn, settled]
    rfl
  | stream h => exact turn.opensStream settled inside h
  | next => exact turn.pollsStream settled
  | tryNext => exact turn.pollsStream settled
  | collect => exact turn.pollsStream settled
  | hasEnded =>
    rw [start]
    cases task.stream <;> exact turn.replies settled _
  | describeStream =>
    rw [start]
    cases task.stream <;> exact turn.replies settled _
  | dropStream =>
    exact turn.replaces settled (fun s member => by cases member) rfl
      (Task.callPlace_eq_none settled)
  | resolve h => exact turn.resolves settled inside h
  | recvFrom h =>
    rw [start]
    cases task.remembered with
    | none => exact turn.replies settled _
    | some id => exact turn.receivesFrom settled inside ⟨h, id⟩
  | wait h side =>
    rw [start]
    cases task.remembered with
    | none => exact turn.replies settled _
    | some id => exact turn.waits settled inside deed ⟨h, id⟩ side _

end InTurn

end Executor

end MessageBus
