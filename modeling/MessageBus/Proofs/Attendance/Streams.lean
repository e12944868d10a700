import MessageBus.Proofs.Attendance.Steps

/-!
# Who waits for a stream keeps to it

If no task looks at its stream only once, then a task whose stream has a receive in flight is at an
instruction that waits for the next item. Whenever it goes on it looks there, and the frames of its
turn let it do nothing else before (`Attentive.streams_step`).
-/

namespace MessageBus

namespace Task

variable {task : Task}

theorem not_isAtStream_of_fresh (fresh : task.progress = .fresh)
    (away : task.looksAtStream = false) : ¬task.IsAtStream := by
  rintro (⟨-, looks⟩ | ⟨items, collecting⟩)
  · cases looks.symm.trans away
  · cases fresh.symm.trans collecting

theorem not_isAtStream_of_progress (begun : task.progress ≠ .fresh)
    (other : ∀ items, task.progress ≠ .collecting items) : ¬task.IsAtStream := by
  rintro (⟨fresh, -⟩ | ⟨items, collecting⟩)
  · exact begun fresh
  · exact other items collecting

theorem not_isAtStream_of_calling {b : Nat} {q : Request} {prior : Option Place} {recorded : Bool}
    (calling : task.progress = .calling b q prior recorded) : ¬task.IsAtStream := by
  refine not_isAtStream_of_progress ?_ fun _ => ?_
  all_goals
    rw [calling]
    nofun

theorem not_isAtStream_of_waiting {b : Nat} {p : Place} {before : String} {after : List String}
    (waiting : task.progress = .waiting b p before after) : ¬task.IsAtStream := by
  refine not_isAtStream_of_progress ?_ fun _ => ?_
  all_goals
    rw [waiting]
    nofun

end Task

namespace Executor

variable {u : Usage} {x y : Executor} {f g : Frame} {t t' b : Nat} {task : Task}
  {w : Waker} {e : Errand Waker} {change : Task → Task} {frames rest : List Frame}

theorem Pursues.not_isAtStream {q : Request} {prior : Option Place} {recorded : Bool}
    (pursues : x.Pursues task b q prior recorded) : ¬task.IsAtStream := by
  cases pursues with
  | calling progress => exact Task.not_isAtStream_of_calling progress
  | call fresh current _ =>
    exact Task.not_isAtStream_of_fresh fresh (by rw [Task.looksAtStream, current])
  | recvFrom fresh current _ =>
    exact Task.not_isAtStream_of_fresh fresh (by rw [Task.looksAtStream, current])

theorem KeepsToStream.streamPlace (keeps : x.KeepsToStream t) (found : x.tasks[t]? = some task)
    (away : ¬task.IsAtStream) : task.streamPlace = none := by
  by_contra place
  exact away (keeps task found place).1

theorem KeepsToStream.streamPlace_of_top (keeps : x.KeepsToStream t)
    (found : x.tasks[t]? = some task) (stack : x.stack = f :: rest) (own : f.turn? = some t)
    (ends : ¬f.Continues) : task.streamPlace = none := by
  by_contra place
  exact ends ((keeps task found place).2 f (stack ▸ List.mem_cons_self) own)

/-- A stream that has ended has no receive in flight. -/
theorem Sound.place_of_ended (sound : x.Sound u) (bare : ¬u.bareWaits)
    (found : x.tasks[t]? = some task) {s : Stream} (stream : task.stream = some s)
    (ended : s.id = none) : s.place = none := by
  cases place : s.place with
  | none => rfl
  | some p =>
    have holds : task.streamStay = some (s.bus, ⟨none, p⟩) := by
      rw [Task.streamStay, stream, Option.bind_some, place, ended]
      rfl
    have member : (⟨none, p⟩ : Stay) ∈ x.staysOn s.bus := by
      refine mem_staysOn_iff.2 ⟨task, List.mem_of_getElem? found, ?_⟩
      rw [Task.stays, holds]
      exact List.mem_append_right _ List.mem_cons_self
    exact absurd (sound.permitted s.bus _ member) bare

/-- A task does not have two frames of its turn on the stack. -/
theorem Sound.turn_below (sound : x.Sound u) (stack : x.stack = f :: rest)
    (own : f.turn? = some t) (member : g ∈ rest) : g.turn? ≠ some t := by
  intro again
  obtain ⟨task, below, rfl, turn⟩ := sound.inTurn stack own
  rcases List.mem_cons.1 member with rfl | later
  · cases again
  · exact turn.once (turn.below.leave_of_turn later again)

/-! ### No bus is entered -/

theorem Replaces.turn_eq {stream : Option Stream} {next : Frame}
    (replaces : x.Replaces f t stream next) : next.turn? = some t := by
  cases replaces <;> rfl

/-- A stream is replaced only while no receive is in flight. -/
theorem Replaces.settled {stream : Option Stream} {next : Frame} (keeps : x.KeepsToStream t)
    (stack : x.stack = f :: rest) (replaces : x.Replaces f t stream next)
    (found : x.tasks[t]? = some task) : task.streamPlace = none := by
  cases replaces with
  | ends found' fresh ended =>
    cases found.symm.trans found'
    exact keeps.streamPlace found
      (Task.not_isAtStream_of_fresh fresh (by rw [Task.looksAtStream, ended]))
  | drops found' fresh current =>
    cases found.symm.trans found'
    exact keeps.streamPlace found
      (Task.not_isAtStream_of_fresh fresh (by rw [Task.looksAtStream, current]))
  | adopts => exact keeps.streamPlace_of_top found stack rfl id

/-- A frame of a turn lets its task keep to its stream, or no receive is in flight. -/
theorem Quiet.continues (streams : ∀ t, x.KeepsToStream t) (sound : x.Sound u)
    (bare : ¬u.bareWaits) (stack : x.stack = f :: rest) (quiet : x.Quiet f t change frames)
    (member : g ∈ frames) (own : g.turn? = some t') (found : x.tasks[t']? = some task) :
    g.Continues ∨ task.streamPlace = none := by
  cases quiet with
  | passes _ => cases member
  | observes _ _ => cases member
  | suspends => cases member
  | finishes => cases member
  | begins _ _ =>
    rcases List.mem_cons.1 member with rfl | member
    · exact .inl trivial
    · cases List.mem_singleton.1 member
      cases own
  | breaksOff _ _ =>
    cases List.mem_singleton.1 member
    cases own
  | completes _ =>
    cases List.mem_singleton.1 member
    exact .inl trivial
  | collects _ _ =>
    cases List.mem_singleton.1 member
    exact .inl trivial
  | @replies _ w reply top prompt =>
    cases List.mem_singleton.1 member
    cases own
    by_cases proceeds : f.Continues
    · cases f with
      | proceed w' =>
        obtain ⟨task', found', -, prompt⟩ := prompt
        have same : w'.task = w.task := Option.some.inj top
        rw [same] at found'
        cases found.symm.trans found'
        rcases prompt with yielded | ⟨none, -⟩ | ⟨fresh, away, -⟩
        · refine .inr ((streams _).streamPlace found (Task.not_isAtStream_of_progress ?_ ?_))
          all_goals simp [yielded]
        · exact .inr (by rw [Task.streamPlace, none]; rfl)
        · exact .inr ((streams _).streamPlace found (Task.not_isAtStream_of_fresh fresh away))
      | suspend _ => exact prompt.elim
      | _ => exact proceeds.elim
    · exact .inr ((streams _).streamPlace_of_top found stack top proceeds)
  | yields _ _ _ =>
    rcases List.mem_cons.1 member with rfl | member
    · cases own
    · cases List.mem_singleton.1 member
      exact .inl trivial
  | streamEnds found' _ stream ended =>
    cases List.mem_singleton.1 member
    cases own
    cases found.symm.trans found'
    refine .inr ?_
    rw [Task.streamPlace, stream, Option.bind_some, sound.place_of_ended bare found stream ended]
    rfl
  | drops found' fresh current _ _ =>
    rcases List.mem_cons.1 member with rfl | member
    · cases own
    · cases List.mem_singleton.1 member
      cases own
      cases found.symm.trans found'
      exact .inr ((streams _).streamPlace found
        (Task.not_isAtStream_of_fresh fresh (by rw [Task.looksAtStream, current])))
  | replaces replaces _ =>
    rw [List.mem_singleton.1 member] at own
    cases own.symm.trans replaces.turn_eq
    exact .inr (replaces.settled (streams _) stack found)

/-- A task with a receive in flight stays where it is. -/
theorem Quiet.isAtStream (streams : ∀ t, x.KeepsToStream t) (sound : x.Sound u)
    (stack : x.stack = f :: rest) (quiet : x.Quiet f t change frames)
    (found : x.tasks[t]? = some task) (place : (change task).streamPlace ≠ none) :
    task.streamPlace ≠ none ∧ (change task).IsAtStream := by
  have kept (same : task.streamPlace ≠ none) : task.streamPlace ≠ none ∧ task.IsAtStream :=
    ⟨same, (streams t task found same).1⟩
  cases quiet with
  | breaksOff found' running => exact absurd running (sound.life_of_leave stack found')
  | observes found' progress =>
    cases found.symm.trans found'
    have none := (streams _).streamPlace found (Task.not_isAtStream_of_waiting progress)
    exact absurd none place
  | completes _ => exact absurd ((streams _).streamPlace_of_top found stack rfl id) place
  | collects _ _ => exact absurd ((streams _).streamPlace_of_top found stack rfl id) place
  | yields found' fresh current =>
    cases found.symm.trans found'
    exact absurd ((streams _).streamPlace found
      (Task.not_isAtStream_of_fresh fresh (by rw [Task.looksAtStream, current]))) place
  | replaces replaces _ => exact absurd (replaces.streamPlace sound stack task) place
  | _ => exact kept place

/-! ### A bus is entered -/

/-- Only the task that is on the errand goes on with its turn. -/
theorem Sequel.turn_eq {o : Outcome (Registry Waker) Waker Upshot}
    (sequel : x.Sequel f b e o t change frames) (member : g ∈ frames) (own : g.turn? = some t') :
    t' = t := by
  cases sequel with
  | @looks w _ _ _ _ _ p _ _ _ =>
    rw [List.mem_singleton.1 member] at own
    have same : (p.answer.frame w).turn? = some w.task := by
      rcases p.answer with _ | _ | _ | _ <;> rfl
    exact Option.some.inj (own.symm.trans same)
  | @looksAtStream w task _ _ p _ _ _ _ _ =>
    rw [List.mem_singleton.1 member] at own
    have same : (p.answer.streamFrame w (task.ifPending w)).turn? = some w.task := by
      have pending := task.turn_ifPending w
      rcases p.answer with ⟨_ | _⟩ | _ | _ | _
      exacts [rfl, rfl, pending, pending, rfl]
    exact Option.some.inj (own.symm.trans same)
  | parks _ _ _ _ _ =>
    rcases List.mem_cons.1 member with rfl | member
    · cases own
    · cases List.mem_singleton.1 member
      exact (Option.some.inj own).symm
  | waits _ _ _ =>
    rcases List.mem_cons.1 member with rfl | member
    · cases own
    · cases List.mem_singleton.1 member
      exact (Option.some.inj own).symm
  | abandons forgets =>
    cases forgets with
    | stream replaces _ _ =>
      rw [List.mem_singleton.1 member] at own
      exact Option.some.inj (own.symm.trans replaces.turn_eq)
    | place _ _ =>
      cases List.mem_singleton.1 member
      cases own
  | _ =>
    cases List.mem_singleton.1 member
    exact (Option.some.inj own).symm

theorem NeverPeeks.ifPending (never : x.NeverPeeks) (found : x.tasks[t]? = some task)
    (w : Waker) : task.ifPending w = .suspend w.task := by
  rw [Task.ifPending]
  split
  · rename_i current
    exact absurd rfl (never task (List.mem_of_getElem? found) _ (List.mem_of_getElem? current))
  · rfl

/-- An errand on which a task leaves a receive of its stream in flight lets it stay there. -/
theorem Sequel.isAtStream {o : Outcome (Registry Waker) Waker Upshot}
    (streams : ∀ t, x.KeepsToStream t) (sound : x.Sound u) (never : x.NeverPeeks)
    (stack : x.stack = f :: rest) (sequel : x.Sequel f b e o t change frames)
    (found : x.tasks[t]? = some task) (place : (change task).streamPlace ≠ none) :
    f.turn? = some t ∧ (change task).IsAtStream ∧ ∀ g ∈ frames, g.turn? = some t → g.Continues := by
  have settled (away : ¬task.IsAtStream) (same : (change task).streamPlace = task.streamPlace) :
      False := place (same.trans ((streams t).streamPlace found away))
  cases sequel with
  | operates found' fresh current _ =>
    cases found.symm.trans found'
    refine (settled (Task.not_isAtStream_of_fresh fresh ?_) rfl).elim
    rw [Task.looksAtStream, current]
  | @looks w _ _ q prior recorded p found' pursues _ =>
    cases found.symm.trans found'
    refine (settled pursues.not_isAtStream ?_).elim
    rcases p.answer with _ | _ | _ | _ <;> rfl
  | @looksAtStream w _ s _ p found' atStream _ _ _ =>
    cases found.symm.trans found'
    have pending : (task.ifPending w).Continues := by
      rw [never.ifPending found w]
      trivial
    refine ⟨rfl, ?_, List.forall_mem_singleton.2 fun _ => ?_⟩
    · rcases p.answer with ⟨_ | _⟩ | _ | _ | _ <;> exact atStream
    · generalize p.answer = turn at place ⊢
      rcases turn with ⟨_ | _⟩ | _ | _ | _
      exacts [absurd rfl place, absurd rfl place, pending, pending, trivial]
  | fails found' fresh current _ =>
    cases found.symm.trans found'
    refine (settled (Task.not_isAtStream_of_fresh fresh ?_) rfl).elim
    rw [Task.looksAtStream, current]
  | resolvesStream found' fresh current =>
    cases found.symm.trans found'
    refine (settled (Task.not_isAtStream_of_fresh fresh ?_) rfl).elim
    rw [Task.looksAtStream, current]
  | resolves found' fresh current remembers =>
    cases found.symm.trans found'
    obtain ⟨remembered, kept⟩ := remembers task
    refine (settled (Task.not_isAtStream_of_fresh fresh ?_) (by rw [kept]; rfl)).elim
    rw [Task.looksAtStream, current]
  | parks found' fresh current _ _ =>
    cases found.symm.trans found'
    refine (settled (Task.not_isAtStream_of_fresh fresh ?_) rfl).elim
    rw [Task.looksAtStream, current]
  | parksNowhere found' fresh current _ _ =>
    cases found.symm.trans found'
    refine (settled (Task.not_isAtStream_of_fresh fresh ?_) rfl).elim
    rw [Task.looksAtStream, current]
  | waits found' progress _ =>
    cases found.symm.trans found'
    exact (settled (Task.not_isAtStream_of_waiting progress) rfl).elim
  | wakes found' progress _ =>
    cases found.symm.trans found'
    exact (settled (Task.not_isAtStream_of_waiting progress) rfl).elim
  | abandons forgets =>
    cases forgets with
    | stream replaces _ _ => exact absurd (replaces.streamPlace sound stack task) place
    | place _ _ =>
      dsimp only [Task.giveUpPlace] at place
      cases call : task.callPlace with
      | none =>
        rw [call] at place
        exact absurd rfl place
      | some held =>
        rw [call] at place
        refine absurd ((streams t).streamPlace found fun atStream => ?_) place
        cases call.symm.trans (Task.callPlace_of_atStream atStream)

/-! ### A step -/

theorem Quiet.keepsToStream (streams : ∀ t, x.KeepsToStream t) (sound : x.Sound u)
    (bare : ¬u.bareWaits) (stack : x.stack = f :: rest) (quiet : x.Quiet f t change frames)
    (tasks : y.tasks = x.tasks.modify t change) (stack' : y.stack = frames ++ rest) (t' : Nat) :
    y.KeepsToStream t' := by
  have continues {task : Task} (found : x.tasks[t']? = some task)
      (place : task.streamPlace ≠ none) : ∀ g ∈ y.stack, g.turn? = some t' → g.Continues := by
    intro g member own
    rw [stack', List.mem_append] at member
    rcases member with new | old
    · exact (quiet.continues streams sound bare stack new own found).resolve_right place
    · exact (streams t' task found place).2 g (stack ▸ List.mem_cons_of_mem _ old) own
  intro task' found' place
  rw [tasks] at found'
  obtain ⟨task, found, ⟨rfl, rfl⟩ | ⟨-, rfl⟩⟩ := getElem?_modify_cases found'
  · obtain ⟨before, after⟩ := quiet.isAtStream streams sound stack found place
    exact ⟨after, continues found before⟩
  · exact ⟨(streams t' _ found place).1, continues found place⟩

theorem Sequel.keepsToStream {o : Outcome (Registry Waker) Waker Upshot}
    (streams : ∀ t, x.KeepsToStream t) (sound : x.Sound u) (never : x.NeverPeeks)
    (stack : x.stack = f :: rest) (sequel : x.Sequel f b e o t change frames)
    (tasks : y.tasks = x.tasks.modify t change)
    (stack' : ∀ g ∈ y.stack, g.turn? ≠ none → g ∈ frames ∨ g ∈ rest) (t' : Nat) :
    y.KeepsToStream t' := by
  have member' {g : Frame} (member : g ∈ y.stack) (own : g.turn? = some t') :
      g ∈ frames ∨ g ∈ rest := stack' g member (own ▸ Option.some_ne_none t')
  intro task' found' place
  rw [tasks] at found'
  obtain ⟨task, found, ⟨rfl, rfl⟩ | ⟨other, rfl⟩⟩ := getElem?_modify_cases found'
  · obtain ⟨top, atStream, continues⟩ :=
      sequel.isAtStream streams sound never stack found place
    refine ⟨atStream, fun g member own => ?_⟩
    rcases member' member own with new | old
    · exact continues g new own
    · exact absurd own (sound.turn_below stack top old)
  · obtain ⟨atStream, continues⟩ := streams t' _ found place
    refine ⟨atStream, fun g member own => ?_⟩
    rcases member' member own with new | old
    · exact absurd (sequel.turn_eq new own) other
    · exact continues g (stack ▸ List.mem_cons_of_mem _ old) own

/-- Tasks keep to their streams in a step. -/
theorem Attentive.streams_step (att : x.Attentive) (sound : x.Sound u) (bare : ¬u.bareWaits)
    (never : x.NeverPeeks) (t : Nat) : x.step.KeepsToStream t := by
  have streams := att.streams
  cases stack : x.stack with
  | nil =>
    rw [step_of_stack_nil stack]
    exact streams t
  | cons f rest =>
    -- Where the tasks stay as they are, no frame of a turn is put on the stack.
    have rests (frames : List Frame) (tasks : x.step.tasks = x.tasks)
        (stack' : x.step.stack = frames ++ rest) (own : ∀ g ∈ frames, g.turn? = none) :
        x.step.KeepsToStream t := by
      intro task found place
      rw [tasks] at found
      obtain ⟨atStream, continues⟩ := streams t task found place
      refine ⟨atStream, fun g member turn => ?_⟩
      rw [stack', List.mem_append] at member
      rcases member with new | old
      · cases (own g new).symm.trans turn
      · exact continues g (stack ▸ List.mem_cons_of_mem _ old) turn
    cases x.step_unfolds stack with
    | quiet _ quiet leads =>
      exact quiet.keepsToStream streams sound bare stack leads.tasks leads.stack t
    | releases _ leads => exact rests [] leads.tasks leads.stack (List.forall_mem_nil _)
    | polls _ _ _ leads _ => exact rests [_, _] leads.tasks leads.stack (by simp [Frame.turn?])
    | readies _ leads _ _ _ => exact rests [_] leads.tasks leads.stack (by simp [Frame.turn?])
    | drains _ _ alive leads _ =>
      refine rests _ leads.tasks (leads.stack.trans (List.append_cons _ _ _)) ?_
      rcases alive with rfl | ⟨rfl, -⟩ <;> simp [Frame.turn?]
    | enters _ _ sequel leads =>
      refine sequel.keepsToStream streams sound never stack leads.tasks (fun g member own => ?_) t
      rw [leads.stack] at member
      rcases List.mem_cons.1 member with rfl | member
      · exact absurd rfl own
      rcases List.mem_cons.1 member with rfl | member
      · exact absurd rfl own
      rcases List.mem_cons.1 member with rfl | member
      · exact absurd rfl own
      exact List.mem_append.1 member
    | fails errand failed _ _ _ _ => exact absurd failed (sound.carried errand)

end Executor

end MessageBus
