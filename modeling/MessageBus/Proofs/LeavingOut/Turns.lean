import MessageBus.Proofs.Gone
import MessageBus.Proofs.LeavingOut.Absentees
import MessageBus.Proofs.LeavingOut.Waiter
import MessageBus.Proofs.Likeness.Steps
import MessageBus.Proofs.Renewals
import MessageBus.Proofs.Termination

/-!
# What the caller does that is left out

A caller that goes to wait, looks at its place before it is called, or gives it up then, enters its
bus and wakes nobody. Three steps later nothing is left of that but on the bus and in its task
(`Executor.access_unheard`), and without the caller it does not show there. So an executor is like
one without the caller again, which was only suspended or did nothing.
-/

namespace MessageBus

namespace Executor

variable {α : Type} {L : Likeness} {differs : Nat → Nat → Prop} {asked : Prop} {x y : Executor}
  {b t : Nat} {w : Waker} {task : Task} {rest : List Frame} {r : Registry Waker}

/-- An executor whose tasks are like themselves is like itself, but for its buses. -/
theorem Alike.self {buses : List SharedBus}
    (like : ∀ b, Option.Rel (L.Buses b) buses[b]? x.buses[b]?)
    (tasks : ∀ t task, x.tasks[t]? = some task → L.Tasks t task task) :
    ({ x with buses } : Executor).Alike L differs asked x where
  inline := rfl
  buses := like
  tasks t := by
    cases found : x.tasks[t]? with
    | none => exact .none
    | some task => exact .some (tasks t task found)
  ready := rfl
  slot := rfl
  seen := List.forall₂_same.2 fun e _ => .same e
  stack := List.forall₂_same.2 fun f _ => .same f
  answer := by
    show Option.Rel _ x.answer x.answer
    cases x.answer with
    | none => exact .none
    | some reply => exact .some (.same reply)

/-- The step that looks at a request enters its bus for that. -/
theorem Pursues.step_eq {q : Request} {prior : Option Place} {recorded : Bool}
    (stack : x.stack = .proceed w :: rest) (found : x.tasks[w.task]? = some task)
    (pursues : x.Pursues task b q prior recorded) :
    ∃ f, f (x.registry b) = q.look (x.registry b) prior w ∧
      x.step = ({ x with stack := rest } : Executor).access b f (takeTurn w b recorded) := by
  have step : x.step = ({ x with stack := rest } : Executor).proceed w task := by
    rw [step_of_stack_cons stack, perform,
      withTask_of_found (x := { x with stack := rest }) found]
  rw [step, proceed]
  cases pursues with
  | calling progress =>
    rw [progress]
    cases prior with
    | none => exact ⟨_, rfl, rfl⟩
    | some p => exact ⟨_, rfl, rfl⟩
  | @call c q progress current resolved =>
    rw [progress]
    simp only [current, start]
    refine ⟨_, ?_, rfl⟩
    simp only [Call.start, resolved]
    rfl
  | recvFrom progress current remembered =>
    rw [progress]
    simp only [current, start, remembered]
    exact ⟨_, rfl, rfl⟩

/-! ### Accesses that wake nobody -/

/-- What observers are told does not depend on the buses, the tasks or the stack. -/
theorem tell_with (x : Executor) (notes : List Note) (buses : List SharedBus) (tasks : List Task)
    (stack : List Frame) : ({ x with buses, tasks, stack } : Executor).tell notes =
      { x.tell notes with buses, tasks, stack } := by
  induction notes generalizing x with
  | nil => rfl
  | cons n notes ih =>
    refine Eq.trans (congrArg (Executor.tell · notes) ?_) (ih (x.tellOne n))
    rw [tellOne, tellOne]
    split <;> rfl

/-- Three steps after an access that wakes nobody, only its bus, one task and the stack have
changed. -/
theorem access_unheard {bus : SharedBus}
    {f : Registry Waker → Except Fault (Outcome (Registry Waker) Waker α)}
    {o : Outcome (Registry Waker) Waker α} {next : α → Executor → Executor}
    (change : Task → Task) (frames : List Frame) (there : x.buses[b]? = some bus)
    (free : bus.inUse = false) (ran : f bus.registry = .ok o) (woken : o.woken = [])
    (goesOn : ∀ z, next o.answer z =
      { z with tasks := z.tasks.modify t change, stack := frames ++ z.stack }) :
    (x.access b f next).step.step.step =
      (({ x with
          buses := x.buses.set b ⟨o.state, false⟩
          tasks := x.tasks.modify t change
          stack := frames ++ x.stack } : Executor).tell o.notes).tell o.afterwards := by
  have released : (x.buses.set b ⟨o.state, true⟩).modify b ({ · with inUse := false }) =
      x.buses.set b ⟨o.state, false⟩ := by
    refine List.ext_getElem? fun b' => ?_
    rw [List.getElem?_modify, List.getElem?_set, List.getElem?_set]
    split
    · split <;> rfl
    · simp
  have accessed : x.access b f next =
      { x.tell o.notes with
        buses := x.buses.set b ⟨o.state, true⟩
        tasks := x.tasks.modify t change
        stack := [.release b, .wake [], .tell o.afterwards] ++ (frames ++ x.stack) } := by
    rw [access_of_ran there free ran, woken, goesOn]
    exact congrArg (fun z : Executor => ({ z with
      tasks := z.tasks.modify t change
      stack := frames ++ z.stack } : Executor).push [.release b, .wake [], .tell o.afterwards])
      (tell_with x o.notes (x.buses.set b ⟨o.state, true⟩) x.tasks x.stack)
  rw [accessed, ← released]
  exact congrArg (Executor.tell · o.afterwards) (tell_with x o.notes _ _ _).symm

/-- After such an access, and what is told of it, an executor is alike to one that only put the same
frames on its stack, if the bus and the task are. -/
theorem Alike.unheard
    (alike : ({ x with buses := x.buses.set b ⟨r, false⟩ } : Executor).Alike L differs asked y)
    (change : Task → Task)
    (tasks : ∀ task task', x.tasks[t]? = some task → L.Tasks t task task' →
      L.Tasks t (change task) task')
    (position : ∀ task, (change task).position = task.position) (frames : List Frame)
    (notes afterwards : List Note) :
    ((({ x with
        buses := x.buses.set b ⟨r, false⟩
        tasks := x.tasks.modify t change
        stack := frames ++ x.stack } : Executor).tell notes).tell afterwards).Alike L differs asked
      (y.push frames) := by
  have unchanged : y.modifyTask t id = y := by
    rw [Executor.modifyTask, List.modify_id]
  have changed : (({ x with buses := x.buses.set b ⟨r, false⟩ } : Executor).modifyTask t
      change).Alike L differs asked (y.modifyTask t id) :=
    alike.modifyTask tasks (.inl position)
  rw [unchanged] at changed
  exact ((changed.pushSame frames).tell notes []).tell afterwards []

/-- A bus may change as long as it may stand for the same one. -/
theorem Alike.setRegistry (alike : x.Alike L differs asked y) {bus : SharedBus}
    (there : x.buses[b]? = some bus) (free : bus.inUse = false)
    (same : L.registry b r (y.registry b)) :
    ({ x with buses := x.buses.set b ⟨r, false⟩ } : Executor).Alike L differs asked y := by
  refine { alike with buses := fun b' => ?_ }
  have buses := alike.buses b'
  show Option.Rel _ (x.buses.set b _)[b']? y.buses[b']?
  rw [List.getElem?_set]
  split
  · rename_i own
    subst own
    rw [if_pos (List.getElem?_eq_some_iff.1 there).1]
    rw [there] at buses
    rw [Executor.registry] at same
    generalize y.buses[b]? = after at buses same ⊢
    cases buses with
    | some buses => exact .some ⟨same, buses.inUse.trans free⟩
  · exact buses

/-- A small step, but a task does not go on with its instruction: it is suspended. -/
def stepWithout (t : Nat) (x : Executor) : Executor :=
  match x.stack with
  | .proceed w :: rest => if w.task = t then { x with stack := .suspend t :: rest } else x.step
  | _ => x.step

theorem stepWithout_of_proceed (stack : x.stack = .proceed w :: rest) (own : w.task = t) :
    x.stepWithout t = ({ x with stack := rest } : Executor).push [.suspend t] := by
  rw [stepWithout, stack]
  exact if_pos own

theorem stepWithout_of_others (others : ¬x.Proceeds t) : x.stepWithout t = x.step := by
  rw [stepWithout]
  split
  · rename_i w rest stack
    exact if_neg fun own => others ⟨w, rest, stack, own⟩
  · rfl

/-- In executors that are alike the same task goes on. -/
theorem Alike.proceeds (alike : x.Alike L differs asked y) (proceeds : y.Proceeds t) :
    x.Proceeds t := by
  obtain ⟨w, rest, stack, own⟩ := proceeds
  have frames := alike.stack
  rw [stack] at frames
  obtain ⟨f, rest', top, -, stack'⟩ := List.forall₂_cons_right_iff.1 frames
  cases top with
  | same => exact ⟨w, rest', stack', own⟩

end Executor

/-! ### The turns of the caller -/

namespace Absentee

open Executor

variable {m : Absentee} {differs : Nat → Nat → Prop} {asked : Prop} {x y : Executor} {u : Usage}
  {w : Waker} {task task' : Task} {rest : List Frame}

theorem callPlace_of_waits (waits : task.progress = m.progress) :
    task.callPlace = some (m.bus, m.place) := by
  rw [Task.callPlace, waits]
  rfl

theorem places_of_waits (waits : task.progress = m.progress) :
    task.places = (m.bus, m.place) :: task.streamPlace.toList := by
  rw [Task.places, callPlace_of_waits waits]
  rfl

theorem inside_of_waits (sound : x.Sound u) (found : x.tasks[m.task]? = some task)
    (waits : task.progress = m.progress) : m.bus < x.buses.length :=
  Task.inside_of_places (p := m.place) (sound.tasks task (List.mem_of_getElem? found))
    (places_of_waits waits ▸ List.mem_cons_self)

/-- Without the caller its task has not begun with the call. -/
theorem fresh_of_waits (tasks : m.likeness.Tasks m.task task task')
    (waits : task.progress = m.progress) : task'.progress = .fresh := by
  have progress := tasks.progress
  rw [waits] at progress
  generalize task'.progress = after at progress ⊢
  cases progress with
  | calling _ _ _ places =>
    cases places with
    | some places => exact absurd rfl (place_self_iff.1 places).2
  | absent _ => rfl

theorem registry_of_same {r r' r'' : Registry Waker} (like : m.likeness.registry m.bus r r'')
    (same : r'.leavingOut m.place.ticket = r.leavingOut m.place.ticket) :
    m.likeness.registry m.bus r' r'' := by
  show r'' = m.leftOut m.bus r'
  rw [leftOut_self, same, ← leftOut_self]
  exact like

/-- The tops of two stacks are alike, and so are executors without them. -/
theorem below (alike : x.Alike m.likeness differs asked y) {f : Frame} (stack : x.stack = f :: rest)
    (plain : ∀ f', f.Alike (Caller.MayDiffer x.tasks differs asked) f' → f' = f) :
    ∃ rest', y.stack = f :: rest' ∧ ({ x with stack := rest } : Executor).Alike m.likeness differs
      asked { y with stack := rest' } := by
  have frames := alike.stack
  rw [stack] at frames
  cases after : y.stack with
  | nil =>
    rw [after] at frames
    cases frames
  | cons f' rest' =>
    rw [after] at frames
    obtain ⟨top, below⟩ := List.forall₂_cons.1 frames
    rw [plain f' top]
    exact ⟨rest', rfl, { alike with stack := below }⟩

/-- A caller that looks at its place before it is called is only suspended again. -/
theorem IsIn.looks (sound : x.Sound u) (alike : x.Alike m.likeness differs asked y)
    (isIn : m.IsIn x) (queued : (x.registry m.bus).isQueued m.place = true)
    (stack : x.stack = .proceed w :: rest) (own : w.task = m.task) :
    x.step.step.step.step.Alike m.likeness differs asked (y.stepWithout m.task) := by
  obtain ⟨task, found, waits⟩ := isIn
  have inside := inside_of_waits sound found waits
  obtain ⟨bus, there, free, registry⟩ :=
    exists_bus inside (sound.calm stack (fun _ => Frame.noConfusion) m.bus)
  have look : m.request.advance (x.registry m.bus) m.place w = _ :=
    Request.look_of_queued (sound.balanced m.bus) queued m.request w
  have step : x.step = ({ x with stack := rest } : Executor).access m.bus
      (fun r => m.request.advance r m.place w) (takeTurn w m.bus m.recorded) := by
    rw [step_of_stack_cons stack, perform,
      withTask_of_found (x := { x with stack := rest }) (own ▸ found), proceed, waits]
    rfl
  obtain ⟨rest', stack', under⟩ := below alike stack fun _ frames => by cases frames; rfl
  rw [step, stepWithout_of_proceed stack' own, access_unheard (x := { x with stack := rest })
    (t := m.task) id [.suspend m.task] there free (registry ▸ look) rfl fun z => ?_]
  · refine (under.setRegistry there free ?_).unheard id (fun _ _ _ tasks => tasks) (fun _ => rfl)
      [.suspend m.task] _ _
    refine registry_of_same (under.registry inside) ?_
    have kept := Registry.leavingOut_revisit_self queued w
    rw [Registry.revisit_eq_renew (sound.balanced m.bus) queued] at kept
    rw [registry]
    exact kept
  · rw [List.modify_id, ← own]
    rfl

/-- A caller that gives up its place before it is called was not there. -/
theorem IsIn.vacates (sound : x.Sound u) (alike : x.Alike m.likeness differs asked y)
    (isIn : m.IsIn x) (queued : (x.registry m.bus).isQueued m.place = true)
    (stack : x.stack = .vacate m.task :: rest) :
    x.step.step.step.step.Alike m.likeness differs asked y := by
  obtain ⟨task, found, waits⟩ := isIn
  have inside := inside_of_waits sound found waits
  have calm := sound.calm stack (fun _ => Frame.noConfusion) m.bus
  obtain ⟨bus, there, free, registry⟩ := exists_bus inside calm
  obtain ⟨same, woken⟩ := Registry.leavingOut_abandon_self queued
  have step : x.step = x.access m.bus (fun r => .ok (r.abandon m.place))
      fun _ x => x.modifyTask m.task (·.giveUpPlace) := by
    have pushed : ({ x with stack := rest } : Executor).push [.vacate m.task] = x := by
      rw [push, List.singleton_append, ← stack]
    rw [step_of_stack_cons stack, perform, withTask_of_found (x := { x with stack := rest }) found,
      vacate, places_of_waits waits]
    simp only [pushed, giveUp, calm, Bool.false_eq_true, if_false]
  rw [step, access_unheard (o := (x.registry m.bus).abandon m.place) (t := m.task)
    (·.giveUpPlace) [] there free (by rw [registry]) woken fun _ => rfl]
  refine (alike.setRegistry there free ?_).unheard (·.giveUpPlace)
    (fun task₁ task₂ found' tasks => ?_) (fun task => ?_) [] _ _
  · exact registry_of_same (alike.registry inside) same
  · cases found.symm.trans found'
    have fresh := fresh_of_waits tasks waits
    rw [Task.giveUpPlace, callPlace_of_waits waits]
    refine ⟨tasks.same, ?_, tasks.stream⟩
    rw [fresh]
    exact .fresh
  · rw [Task.giveUpPlace]
    split <;> rfl

/-! ### Where the caller comes in -/

/-- In the next step the caller begins with its call, and goes to wait for space, or for messages in
a channel that has slots. -/
structure Arrives (m : Absentee) (x : Executor) (w : Waker) (rest : List Frame) (task : Task) :
    Prop where
  own : w.task = m.task
  stack : x.stack = .proceed w :: rest
  found : x.tasks[m.task]? = some task
  fresh : task.progress = .fresh
  waits : m.IsIn x.step
  roomy : m.place.side = .receivers → ∀ c, (x.registry m.bus).find? m.place.address = some c →
    0 < c.capacity

end Absentee

/-- A look after which a task waits in a call, as it did not before, took a place for this call. -/
theorem Request.parked_of_calls {r : Registry Waker} {w : Waker} {b b' : Nat} {q q' : Request}
    {p : Place} {recorded recorded' : Bool} {task : Task}
    {o : Outcome (Registry Waker) Waker Turn} (ran : q'.look r none w = .ok o)
    (begun : task.progress ≠ .calling b q (some p) recorded)
    (calls : (o.answer.leaves b' recorded' task).progress = .calling b q (some p) recorded) :
    b' = b ∧ q' = q ∧ recorded' = recorded ∧ o.answer = .parked q p := by
  have ends := Request.ends_of_look ran
  cases answer : o.answer with
  | parked q'' p' =>
    rw [answer] at ends calls
    cases calls
    generalize o.state = r', o.woken = woken at ends
    cases ends
    exact ⟨rfl, rfl, rfl, rfl⟩
  | waiting =>
    rw [answer] at calls
    exact absurd calls begun
  | _ =>
    rw [answer] at calls
    cases calls

/-- A task that waits in a call after a step, and had not begun with its instruction, looked at the
request of the call and took a place. -/
theorem Executor.Sound.parks_of_fresh {u : Usage} {x : Executor} {t b : Nat} {task task' : Task}
    {q : Request} {p : Place} {recorded : Bool} (sound : x.Sound u)
    (found : x.tasks[t]? = some task) (fresh : task.progress = .fresh)
    (found' : x.step.tasks[t]? = some task')
    (waits : task'.progress = .calling b q (some p) recorded) :
    ∃ w rest o, x.stack = .proceed w :: rest ∧ w.task = t ∧ x.Pursues task b q none recorded ∧
      q.look (x.registry b) none w = .ok o ∧ o.answer = .parked q p := by
  have begun : task.progress ≠ .calling b q (some p) recorded := by
    rw [fresh]
    exact Progress.noConfusion
  have kept : (∃ w rest o, x.stack = .proceed w :: rest ∧ w.task = t ∧
      x.Pursues task b q none recorded ∧ q.look (x.registry b) none w = .ok o ∧
        o.answer = .parked q p) ∨ ∃ task', x.step.tasks[t]? = some task' ∧
          task'.progress ≠ .calling b q (some p) recorded := by
    refine sound.kept_of_changes found begun (fun f rest change frames stack quiet => ?_)
      fun f rest b' e o change frames stack errand sequel => ?_
    · cases quiet with
      | breaksOff _ _ => exact Progress.noConfusion
      | observes _ _ => exact Progress.noConfusion
      | completes _ => exact Progress.noConfusion
      | collects _ _ => exact Progress.noConfusion
      | yields _ _ _ => exact Progress.noConfusion
      | _ => exact begun
    · cases sequel with
      | @looks w _ b' q' prior recorded' o there pursues ran =>
        cases found.symm.trans there
        obtain rfl : prior = none := by
          cases pursues with
          | calling progress => cases fresh.symm.trans progress
          | _ => rfl
        by_cases calls : (o.answer.leaves b' recorded' task).progress =
            .calling b q (some p) recorded
        · obtain ⟨rfl, rfl, rfl, answer⟩ := Request.parked_of_calls ran begun calls
          exact .inl ⟨w, rest, o, stack, rfl, pursues, ran, answer⟩
        · exact .inr calls
      | @looksAtStream w _ s id o _ _ _ _ _ =>
        have same : (o.answer.leavesStream s task).progress = task.progress := by
          rcases o.answer with (_ | _) | _ | _ | _ <;> rfl
        exact .inr (same ▸ begun)
      | fails _ _ _ _ => exact .inr Progress.noConfusion
      | resolves _ _ _ remembers =>
        obtain ⟨remembered, same⟩ := remembers task
        exact .inr (by rw [same]; exact begun)
      | parks _ _ _ _ _ => exact .inr Progress.noConfusion
      | wakes _ _ _ => exact .inr Progress.noConfusion
      | abandons forgets =>
        cases forgets with
        | stream _ _ _ => exact .inr begun
        | place _ _ =>
          refine .inr ?_
          show (Task.giveUpPlace task).progress ≠ _
          rw [Task.giveUpPlace]
          split
          · exact Progress.noConfusion
          · exact begun
      | _ => exact .inr begun
  rcases kept with parks | ⟨_, found'', others⟩
  · exact parks
  · cases found'.symm.trans found''
    exact absurd waits others

namespace Absentee

open Executor

variable {m : Absentee} {differs : Nat → Nat → Prop} {x : Executor} {u : Usage} {w : Waker}
  {task : Task} {rest : List Frame}

theorem Arrives.parks (arrives : m.Arrives x w rest task) (sound : x.Sound u) :
    x.Pursues task m.bus m.request none m.recorded ∧
      ∃ o, m.request.look (x.registry m.bus) none w = .ok o ∧
        o.answer = .parked m.request m.place := by
  obtain ⟨task', found', waits⟩ := arrives.waits
  obtain ⟨w', rest', o, stack, -, pursues, ran, answer⟩ :=
    sound.parks_of_fresh arrives.found arrives.fresh found' waits
  cases arrives.stack.symm.trans stack
  exact ⟨pursues, o, ran, answer⟩

theorem Arrives.older (sound : x.Sound u) (b : Nat) (h : Handle) (c : Channel Waker)
    (found : (x.registry b).channel? h = some c) (side : Side) (s : Ticket)
    (inside : s ∈ c.tickets side) : s.number < (x.registry b).nextTicket :=
  (sound.balanced b).number_lt (Registry.find?_of_channel? found) inside

/-- A task is like itself without a caller that has yet to come. -/
theorem tasks_self (sound : x.Sound u) {t : Nat}
    (ticket : m.place.ticket = ⟨(x.registry m.bus).nextTicket⟩) (found : x.tasks[t]? = some task) :
    m.likeness.Tasks t task task := by
  refine Likeness.tasks_self ?_
  rintro ⟨b, p⟩ holds
  by_cases own : b = m.bus
  · subst own
    have older : p.ticket.number < m.place.ticket.number := by
      rw [ticket]
      exact sound.ticket_lt (mem_held_iff.2 ⟨t, placesOf_of_found found ▸ holds⟩)
    refine place_self_iff.2 ⟨?_, fun same => Nat.lt_irrefl _ (same ▸ older)⟩
    rw [Place.leavingOut, Ticket.leavingOut_of_lt older]
  · exact (place_iff_of_ne own).2 rfl

/-- Three steps after the caller went to wait, everything is as if its task had been suspended
instead. -/
theorem Arrives.alike (arrives : m.Arrives x w rest task) (sound : x.Sound u) :
    x.step.step.step.step.Alike m.likeness differs False (x.stepWithout m.task) := by
  obtain ⟨pursues, o, ran, answer⟩ := arrives.parks sound
  obtain ⟨own, stack, found, fresh, -, roomy⟩ := arrives
  obtain ⟨ticket, same, woken⟩ :=
    Request.leavingOut_look_self ran answer (older sound m.bus) roomy
  obtain ⟨f, looks, step⟩ := pursues.step_eq stack (own ▸ found)
  obtain ⟨_, _, _, inside, -⟩ := sound.leads_of_look stack (own ▸ found) pursues
  obtain ⟨bus, there, free, registry⟩ :=
    exists_bus inside (sound.calm stack (fun _ => Frame.noConfusion) m.bus)
  have base : ({ x with
      buses := x.buses.set m.bus ⟨o.state, false⟩, stack := rest } : Executor).Alike
      m.likeness differs False { x with stack := rest } := by
    refine Alike.self (x := { x with stack := rest }) (fun b => ?_) fun t task found =>
      tasks_self sound ticket found
    show Option.Rel _ (x.buses.set m.bus _)[b]? x.buses[b]?
    rw [List.getElem?_set]
    split
    · rename_i own
      subst own
      rw [there]
      refine .some ⟨?_, free⟩
      rw [registry]
      exact same.symm.trans (leftOut_self o.state).symm
    · rename_i other
      cases x.buses[b]? with
      | none => exact .none
      | some bus => exact .some ⟨(leftOut_of_ne (Ne.symm other) _).symm, rfl⟩
  rw [step, stepWithout_of_proceed stack own, access_unheard (x := { x with stack := rest })
    (t := m.task) ({ · with progress := m.progress }) [.suspend m.task] there free
    (registry ▸ looks.trans ran) woken fun z => ?_]
  · refine Alike.unheard (x := { x with stack := rest }) (y := { x with stack := rest }) base
      ({ · with progress := m.progress }) (fun task₁ task₂ found' tasks => ?_) (fun _ => rfl)
      [.suspend m.task] _ _
    cases found.symm.trans found'
    have progress := tasks.progress
    rw [fresh] at progress
    refine ⟨?_, ?_, tasks.stream⟩
    · rw [tasks.same]
    · generalize task₂.progress = after at progress ⊢
      cases progress with
      | fresh => exact .absent ⟨rfl, rfl⟩
      | absent gone => cases gone.2
  · rw [answer, ← own]
    rfl

end Absentee

end MessageBus
