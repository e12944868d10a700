import MessageBus.Proofs.Catalogue.Runs
import MessageBus.Proofs.Endings
import MessageBus.Proofs.Stories.Looks

/-!
# Failure and suspension are atomic

Whoever is refused on a bus has changed nothing there, and wakes nobody. This holds of the
operations that answer at once, and of a call whenever its task goes on with it.

Whoever has to wait has changed little: a ticket was given out, and one entry is new, at the end of
one line (`Registry.Parks`). There is one more thing that a receiver does. A channel that is empty
and has no free slot has become open to a broadcast with the receiver, so all its senders leave
their line and are called. With deferred wakeups nothing else happens until the turn is over.
-/

namespace MessageBus

variable {ω : Type}

namespace Channel

/-- A channel after a caller went to the end of one of its lines. -/
def enqueue (c : Channel ω) (side : Side) (k : Waiter ω) : Channel ω :=
  c.setLine side ⟨(c.line side).waiters ++ [k]⟩

/-- A receiver that comes to a channel calls all senders there or none. -/
theorem receiverParked_cases (c : Channel ω) :
    c.queue.items = [] ∧ c.freeSlots = 0 ∧
        c.receiverParked = ({ c with senders := .empty }, c.senders.waiters.map (·.waker)) ∨
      (c.queue.items ≠ [] ∨ c.freeSlots ≠ 0) ∧ c.receiverParked = (c, []) := by
  have opens : ((c.queue.isEmpty && !c.hasSpace) = true) ↔
      c.queue.items = [] ∧ c.freeSlots = 0 := by
    rw [Bool.and_eq_true, Bool.not_eq_true', ← Bool.not_eq_true, c.hasSpace_iff_freeSlots,
      not_not]
    exact and_congr_left' List.isEmpty_iff
  rw [receiverParked]
  split
  · rename_i both
    obtain ⟨empty, full⟩ := opens.1 both
    exact .inl ⟨empty, full, rfl⟩
  · rename_i either
    exact .inr ⟨not_and_or.1 (mt opens.2 either), rfl⟩

end Channel

namespace Registry

variable {r : Registry ω} {a : Address} {c : Channel ω} {side : Side} {k : ω}

/-- What a registry becomes by a caller that takes a place at a channel, and whom that wakes. -/
inductive Parks (r : Registry ω) (a : Address) (k : ω) : Side → Registry ω → List ω → Prop where
  | sender {c : Channel ω} (found : r.find? a = some c) :
    Parks r a k .senders (r.issue.put a.handle (c.enqueue .senders ⟨⟨r.nextTicket⟩, k⟩)) []
  | receiver {c : Channel ω} (found : r.find? a = some c)
      (closed : c.queue.items ≠ [] ∨ c.freeSlots ≠ 0) :
    Parks r a k .receivers (r.issue.put a.handle (c.enqueue .receivers ⟨⟨r.nextTicket⟩, k⟩)) []
  /-- A receiver that comes to an empty channel without a free slot calls all its senders. -/
  | opens {c : Channel ω} (found : r.find? a = some c) (empty : c.queue.items = [])
      (full : c.freeSlots = 0) :
    Parks r a k .receivers
      (r.issue.put a.handle { c.enqueue .receivers ⟨⟨r.nextTicket⟩, k⟩ with senders := .empty })
      (c.senders.waiters.map (·.waker))

theorem parks_of_park {o : Outcome (Registry ω) ω (Option Place)} (found : r.find? a = some c)
    (ran : r.park a side k = .ok o) : r.Parks a k side o.state o.woken := by
  obtain ⟨-, -, state, woken⟩ := joins_of_park found ran
  rw [state, woken]
  cases side with
  | senders => exact .sender found
  | receivers =>
    let parked := c.enqueue .receivers ⟨⟨r.nextTicket⟩, k⟩
    show r.Parks a k .receivers (r.issue.put a.handle parked.receiverParked.1)
      parked.receiverParked.2
    rcases parked.receiverParked_cases with ⟨empty, full, calls⟩ | ⟨closed, calls⟩
    · rw [calls]
      exact .opens found empty full
    · rw [calls]
      exact .receiver found closed

/-- What any refusal and any suspension leaves of a registry. -/
structure IsAtomic (r : Registry ω) : Prop where
  operations : ∀ (op : Operation) (o : Outcome (Registry ω) ω Reply) (e : BusError),
    op.apply r = .ok o → o.answer = .refused e → o.DoesNothing r
  calls : ∀ (call : Call) (k : ω) (o : Outcome (Registry ω) ω Turn) (e : BusError),
    call.start r k = .ok o → o.answer = .finished (.error e) → o.DoesNothing r
  looks : ∀ (q : Request) (prior : Option Place) (k : ω) (o : Outcome (Registry ω) ω Turn)
    (e : BusError), q.look r prior k = .ok o → o.answer = .finished (.error e) → o.DoesNothing r
  parks : ∀ (q q' : Request) (prior : Option Place) (p : Place) (k : ω)
    (o : Outcome (Registry ω) ω Turn), q.look r prior k = .ok o → o.answer = .parked q' p →
    q' = q ∧ p.ticket = ⟨r.nextTicket⟩ ∧ r.Parks p.address k p.side o.state o.woken
  waits : ∀ (a : Address) (side : Side) (k : ω) (o : Outcome (Registry ω) ω (Option Place))
    (p : Place), r.park a side k = .ok o → o.answer = some p → r.Parks a k side o.state o.woken
  /-- A bare wait for a channel that is not there has used up a ticket. -/
  waitsNowhere : ∀ (a : Address) (side : Side) (k : ω) (o : Outcome (Registry ω) ω (Option Place)),
    r.park a side k = .ok o → o.answer = none → o.DoesNothing r.issue
  /-- A bare wait whose channel has gone meanwhile is over. -/
  gone : ∀ (p : Place) (k : ω), (r.revisit p k).answer = .gone → (r.revisit p k).DoesNothing r

theorem isAtomic (r : Registry ω) : r.IsAtomic where
  operations _ _ _ ran refused := Operation.apply_refused ran refused
  calls call k o e ran failed := by
    rw [Call.start] at ran
    split at ran
    · cases ran
      exact ⟨rfl, rfl⟩
    · rename_i q _
      have look : q.look r none k = .ok o := ran
      exact (Request.look_failed look failed).2
  looks _ _ _ _ _ ran failed := (Request.look_failed ran failed).2
  parks q q' prior p k o ran parked := by
    have ends := Request.ends_of_look ran
    generalize o.answer = turn at ends parked
    generalize o.state = r' at ends
    generalize o.woken = woken at ends
    cases ends with
    | parked _ _ found parks =>
      cases parked
      exact ⟨rfl, rfl, parks_of_park found parks⟩
    | _ => cases parked
  waits a side k o p ran placed := by
    cases found : r.find? a with
    | none =>
      cases ran.symm.trans (park_of_gone found side k)
      cases placed
    | some c => exact parks_of_park found ran
  waitsNowhere a side k o ran nowhere := by
    cases found : r.find? a with
    | none =>
      cases ran.symm.trans (park_of_gone found side k)
      exact ⟨rfl, rfl⟩
    | some c => cases nowhere.symm.trans (joins_of_park found ran).answer
  gone p k gone := by
    rcases r.standing_cases p with queued | called | missing
    · obtain ⟨_, _, _, _, stands, _⟩ := revisit_of_queued queued k
      cases gone.symm.trans stands
    · cases gone.symm.trans (revisit_of_called called k).1
    · exact ⟨(revisit_of_gone missing k).2, Request.woken_revisit r p k⟩

end Registry

theorem Turn.of_frame_eq_refused {turn : Turn} {w : Waker} {error : BusError}
    (refused : .complete (.task w) (.refused error) = turn.frame w) :
    turn = .finished (.error error) := by
  cases turn with
  | finished result =>
    cases result with
    | ok _ => cases refused
    | error _ =>
      cases refused
      rfl
  | parked _ _ | waiting | again _ => cases refused

/-- A stream that finds its channel gone comes to its end; it refuses nothing. -/
theorem Turn.streamFrame_ne_refused {turn : Turn} {task : Task} {w : Waker} {error : BusError} :
    .complete (.task w) (.refused error) ≠ turn.streamFrame w (task.ifPending w) := by
  have pending : .complete (.task w) (.refused error) ≠ task.ifPending w := by
    rw [Task.ifPending]
    split <;> intro same <;> cases same
  rcases turn with ⟨_ | _⟩ | _ | _ | _
  case parked => exact pending
  case waiting => exact pending
  all_goals
    intro same
    cases same

namespace Executor

variable {u : Usage} {x : Executor} {b : Nat} {task : Task} {w : Waker} {rest : List Frame}
  {q : Request} {p : Place} {e : Errand Waker} {wakers : List Waker}

/-- While wakeups are deferred, or if none are owed, an access comes to its end with its wakers
called and nothing else done. -/
theorem access_over {later : List Frame} {notes : List Note}
    (deferred : wakers ≠ [] → x.inline = false)
    (stack : x.stack = .release b :: .wake wakers :: .tell notes :: later) :
    ∃ y, settle (wakers.length + 3) x = y ∧ y.stack = later ∧ y.answer = x.answer ∧
      (∀ b', y.registry b' = x.registry b') ∧ wokenIn y.log = wakers.reverse ++ wokenIn x.log := by
  obtain ⟨ready, log, calls, accessed⟩ := settle_access_of_deferred deferred stack
  let last : Executor := { x with
    buses := x.buses.modify b ({ · with inUse := false })
    stack := later
    ready
    log }
  obtain ⟨buses, -, stack'⟩ := last.tell_same notes
  refine ⟨_, accessed, stack', answer_tell last notes, fun b' => ?_,
    (last.wokenIn_tell notes).1.trans calls⟩
  exact registry_modify buses (fun _ => rfl) b'

/-! ### Refusals -/

/-- Every errand on a bus comes to an outcome, and changes nothing else. -/
theorem Sound.changes (sound : x.Sound u) (errand : x.errand? = some (b, e)) :
    ∃ o, e.effect (x.registry b) = .ok o ∧ x.Changes b o.state o.woken := by
  cases stack : x.stack with
  | nil =>
    rw [errand?, stack] at errand
    cases errand
  | cons f rest =>
    obtain ⟨o, _, _, _, carried, -, leads⟩ := sound.enters stack errand
    exact ⟨o, effect_of_carried carried, registry_set_self (inside_of_carried carried) leads.buses,
      fun b' other => registry_set_ne other leads.buses, _, leads.stack⟩

/-- Where an errand leads to a refusal it has done nothing, and the task is still at its
instruction. -/
theorem Sequel.refuses {o : Outcome (Registry Waker) Waker Upshot} {t : Nat}
    {change : Task → Task} {frames : List Frame} {error : BusError}
    (sequel : x.Sequel (.proceed w) b e o t change frames)
    (ran : e.effect (x.registry b) = .ok o)
    (refused : .complete (.task w) (.refused error) ∈ frames) :
    t = w.task ∧ frames = [.complete (.task w) (.refused error)] ∧ o.DoesNothing (x.registry b) ∧
      ∀ task, (change task).position = task.position := by
  -- An operation may refuse, a look may fail, and a handle may be under no channel. Nothing else
  -- comes to a refusal.
  cases sequel with
  | operates _ _ _ ran' =>
    have answer := (Frame.complete.inj (List.mem_singleton.1 refused)).2
    rw [← answer]
    exact ⟨rfl, rfl, (Operation.apply_refused ran' answer.symm).map _, fun _ => rfl⟩
  | looks _ _ ran' =>
    have refused := List.mem_singleton.1 refused
    have failed := Turn.of_frame_eq_refused refused
    refine ⟨rfl, by rw [← refused], ((x.registry b).isAtomic.looks _ _ _ _ _ ran' failed).map _, ?_⟩
    rw [failed]
    exact fun _ => rfl
  | looksAtStream _ _ _ _ _ =>
    exact absurd (List.mem_singleton.1 refused) Turn.streamFrame_ne_refused
  | fails _ _ _ _ =>
    cases List.mem_singleton.1 refused
    cases ran
    exact ⟨rfl, rfl, ⟨rfl, rfl⟩, fun _ => rfl⟩
  | resolvesStream _ _ _ => cases List.mem_singleton.1 refused
  | resolves _ _ _ remembers =>
    cases List.mem_singleton.1 refused
    cases ran
    refine ⟨rfl, rfl, ⟨rfl, rfl⟩, fun task => ?_⟩
    obtain ⟨_, same⟩ := remembers task
    rw [same]
  | parks _ _ _ _ _ | waits _ _ _ => simp at refused
  | parksNowhere _ _ _ _ _ | wakes _ _ _ => cases List.mem_singleton.1 refused
  | abandons forgets =>
    cases forgets with
    | stream replaces _ _ =>
      cases replaces <;> cases List.mem_singleton.1 refused

/-- A refusal reaches the task, while no bus changes and nobody is woken. -/
theorem Sound.endsIn_of_refused {error : BusError} (sound : x.Sound u)
    (stack : x.stack = .proceed w :: rest) (found : x.tasks[w.task]? = some task)
    (errand : x.errand? = some (b, e))
    (refused : .complete (.task w) (.refused error) ∈ x.step.stack) :
    x.EndsIn 5 w task.position (.refused error) := by
  obtain ⟨o, t, change, frames, carried, sequel, leads⟩ := sound.enters stack errand
  have own : .complete (.task w) (.refused error) ∈ frames := by
    rw [leads.stack] at refused
    have refused : .complete (.task w) (.refused error) ∈ frames ++ rest := by simpa using refused
    refine (List.mem_append.1 refused).resolve_right fun below => ?_
    exact sound.turn_below stack rfl below rfl
  obtain ⟨rfl, rfl, ⟨same, nobody⟩, position⟩ := sequel.refuses (effect_of_carried carried) own
  have stack' := leads.stack
  have buses := leads.buses
  rw [nobody] at stack'
  rw [same] at buses
  refine .after_step (endsIn_of_access stack' fun y stack'' tasks => ?_) stack
    (registry_of_set_registry (inside_of_carried carried) buses) leads.calls
  have after : y.tasks[w.task]? = some (change task) := by
    rw [tasks, leads.tasks, List.getElem?_modify_eq, found]
    rfl
  exact position task ▸ endsIn_of_complete stack'' after

/-- An operation that is asked for from outside is refused, and that is all. -/
structure Declines (x y : Executor) (error : BusError) : Prop where
  stack : y.stack = []
  answer : y.answer = some (.refused error)
  registry : ∀ b, y.registry b = x.registry b
  calls : wokenIn y.log = []

theorem Reachable.declines {op : Operation} {o : Outcome (Registry Waker) Waker Reply}
    {error : BusError} (reachable : x.Reachable u) (idle : x.stack = [])
    (inside : b < x.buses.length) (ran : op.apply (x.registry b) = .ok o)
    (refused : o.answer = .refused error) :
    x.Declines (x.carryOut (.act b (.operate op))) error := by
  obtain ⟨same, nobody⟩ := Operation.apply_refused ran refused
  obtain ⟨y, carried, stack, -, buses, answer, calls⟩ :=
    carryOut_operation reachable idle (absurd nobody) inside ran
  rw [same] at buses
  rw [refused] at answer
  rw [nobody] at calls
  rw [carried]
  exact ⟨stack, answer, registry_of_set_registry inside buses, calls⟩

/-! ### Suspensions -/

/-- A call takes the place `p`: what becomes of its bus, and who is owed a wakeup for it. With
deferred wakeups nothing else happens until the task is suspended. -/
structure SuspendsAt (x : Executor) (w : Waker) (b : Nat) (p : Place) (rest : List Frame)
    (r : Registry Waker) (wakers : List Waker) : Prop where
  ticket : p.ticket = ⟨(x.registry b).nextTicket⟩
  parks : (x.registry b).Parks p.address w p.side r wakers
  changes : x.Changes b r wakers
  ends : x.inline = false → ∃ n y log, settle n x = y ∧ y.stack = rest ∧
    y.log = .pending w.task :: log ∧ wokenIn y.log = wakers.reverse ++ wokenIn x.log ∧
    y.registry b = r ∧ ∀ b' ≠ b, y.registry b' = x.registry b'

theorem Sound.suspendsAt {prior : Option Place} {recorded : Bool} {q' : Request}
    {o : Outcome (Registry Waker) Waker Turn} (sound : x.Sound u)
    (stack : x.stack = .proceed w :: rest) (found : x.tasks[w.task]? = some task)
    (pursues : x.Pursues task b q prior recorded) (ran : q.look (x.registry b) prior w = .ok o)
    (parked : o.answer = .parked q' p) : x.SuspendsAt w b p rest o.state o.woken := by
  obtain ⟨o', recorded', ran', inside, -, leads⟩ := sound.leads_of_look stack found pursues
  cases ran.symm.trans ran'
  obtain ⟨rfl, ticket, parks⟩ := (x.registry b).isAtomic.parks _ _ _ _ _ _ ran parked
  have changed : x.step.registry b = o.state := registry_set_self inside leads.buses
  have others (b' : Nat) (other : b' ≠ b) : x.step.registry b' = x.registry b' :=
    registry_set_ne other leads.buses
  have stack' := leads.stack
  rw [parked] at stack'
  refine ⟨ticket, parks, ⟨changed, others, _, stack'⟩, fun deferred => ?_⟩
  -- What is left of the turn once the access is over suspends the task.
  obtain ⟨y, settled, stack'', -, kept, calls⟩ :=
    access_over (fun _ => leads.inline.trans deferred) stack'
  have suspended : y.step = (({ y with stack := rest } : Executor).happen
      (.pending w.task)).modifyTask w.task ({ · with life := .idle }) := step_of_stack_cons stack''
  have same (b' : Nat) : y.step.registry b' = x.step.registry b' := by
    rw [← kept, suspended]
    rfl
  refine ⟨o.woken.length + 3 + 1 + 1, _, _, ?_, congrArg Executor.stack suspended,
    congrArg Executor.log suspended, ?_, (same b).trans changed,
    fun b' other => (same b').trans (others b' other)⟩
  · rw [settle_of_stack_cons stack, settle_add (o.woken.length + 3) 1, settled,
      settle_of_stack_cons stack'']
    rfl
  · rw [suspended, ← leads.calls]
    exact calls

/-- What comes of refusals and suspensions, of whatever is done next. -/
structure IsAtomic (x : Executor) : Prop where
  registries : ∀ b, (x.registry b).IsAtomic
  /-- Whoever enters a bus comes to an outcome there, and changes nothing else. -/
  errands : ∀ b e, x.errand? = some (b, e) →
    ∃ o, e.effect (x.registry b) = .ok o ∧ x.Changes b o.state o.woken
  /-- A task is refused, by an operation or by a call. -/
  refusals : ∀ w rest task b e error, x.stack = .proceed w :: rest →
    x.tasks[w.task]? = some task → x.errand? = some (b, e) →
    .complete (.task w) (.refused error) ∈ x.step.stack →
    x.EndsIn 5 w task.position (.refused error)
  /-- An operation that is asked for from outside is refused. -/
  declines : ∀ b op, x.stack = [] → b < x.buses.length → ∃ o, op.apply (x.registry b) = .ok o ∧
    ∀ error, o.answer = .refused error → x.Declines (x.carryOut (.act b (.operate op))) error
  /-- A call, at its first turn or at a later one, has to take a place. -/
  suspensions : ∀ w rest task b q prior recorded, x.stack = .proceed w :: rest →
    x.tasks[w.task]? = some task → x.Pursues task b q prior recorded →
    ∃ o, q.look (x.registry b) prior w = .ok o ∧ ∀ q' p, o.answer = .parked q' p →
      x.SuspendsAt w b p rest o.state o.woken

/-- Whoever fails has changed nothing and wakes nobody; whoever has to wait has taken a ticket and a
place at the end of one line, and only a receiver may call others by that. -/
theorem failures_and_suspensions_are_atomic (reachable : x.Reachable u) : x.IsAtomic where
  registries b := (x.registry b).isAtomic
  errands _ _ errand := reachable.sound.changes errand
  refusals _ _ _ _ _ _ stack found errand refused :=
    reachable.sound.endsIn_of_refused stack found errand refused
  declines b op idle inside := by
    obtain ⟨o, ran, -⟩ := op.apply_handles (x.registry b)
    exact ⟨o, ran, fun _ refused => reachable.declines idle inside ran refused⟩
  suspensions _ _ _ _ _ _ _ stack found pursues := by
    obtain ⟨o, -, ran, -⟩ := reachable.sound.leads_of_look stack found pursues
    exact ⟨o, ran, fun _ _ parked => reachable.sound.suspendsAt stack found pursues ran parked⟩

/-- Two senders wait at a channel without slots, and a receiver is to come. -/
def sendersAtHandoff : List Step :=
  [.act 0 (.operate (.openChannel 0)), .spawn [⟨0, .call (.send 0 1)⟩] false,
    .spawn [⟨0, .call (.send 0 2)⟩] false, .run none, .spawn [⟨0, .call (.recv 0)⟩] false]

def twoAtHandoff : Executor := ((new false).runScript sendersAtHandoff).1

/-- The receiver goes on. -/
def receiverAtHandoff : Executor :=
  settle 1 ({ twoAtHandoff with log := [], answer := none }.ask (.poll ⟨2, 0⟩))

/-- Who finds no message there and does not wait has changed nothing. The receiver waits, and both
senders are to be called for it. -/
theorem receiver_calls_both_senders :
    twoAtHandoff.Declines (twoAtHandoff.carryOut (.act 0 (.operate (.tryRecv 0)))) .wouldBlock ∧
      ∃ rest r, receiverAtHandoff.SuspendsAt ⟨2, 0⟩ 0 ⟨⟨0, ⟨0⟩⟩, .receivers, ⟨2⟩⟩ rest r
        [⟨0, 0⟩, ⟨1, 0⟩] := by
  have obeys : (new false).Obeys .full sendersAtHandoff := by decide +kernel
  have waiting : twoAtHandoff.Reachable .full := (reachable_new .full false).runScript obeys
  have idle : twoAtHandoff.stack = [] := by rfl
  have wait : twoAtHandoff.registry 0 =
      { slots := [some ⟨⟨0⟩, 0, .empty, ⟨[⟨⟨0⟩, ⟨0, 0⟩⟩, ⟨⟨1⟩, ⟨1, 0⟩⟩]⟩, .empty⟩]
        nextId := 1
        nextTicket := 2 } := by rfl
  constructor
  · obtain ⟨o, ran, declines⟩ := (failures_and_suspensions_are_atomic waiting).declines 0
      (.tryRecv 0) idle (by decide +kernel)
    rw [wait] at ran
    cases ran
    exact declines _ rfl
  · have comes : receiverAtHandoff.Reachable .full :=
      (waiting.next (.ask (s := .poll ⟨2, 0⟩) idle trivial)).settle 1
    have stack : receiverAtHandoff.stack = .proceed ⟨2, 0⟩ :: receiverAtHandoff.stack.tail := by rfl
    have found : receiverAtHandoff.tasks[2]? = some
        { program := [⟨0, .call (.recv 0)⟩], stopsOnError := false, life := .running } := by
      decide +kernel
    have same : receiverAtHandoff.registry 0 = twoAtHandoff.registry 0 := by rfl
    obtain ⟨o, ran, suspends⟩ := (failures_and_suspensions_are_atomic comes).suspensions ⟨2, 0⟩ _ _
      0 (.recv ⟨0, ⟨0⟩⟩) none true stack found (.call rfl rfl (by rfl))
    rw [same, wait] at ran
    cases ran
    exact ⟨_, _, suspends _ _ rfl⟩

end Executor

end MessageBus
