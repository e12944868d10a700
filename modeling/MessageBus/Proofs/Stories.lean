import MessageBus.Proofs.Gone

/-!
# The story of an instruction

A run is followed here for one instruction of one task: the story of the instruction is the list of
the moments at which the task took a step in it, and of the replies that the instruction came to
(`Executor.Story`).

What a step of somebody else does to a task is little (`Sound.kept_beside`): it may begin the task's
turn, end the task, or take a place from a task that is over, but it leaves the task at its
instruction, and puts no other frame of its turn on the stack.
-/

namespace MessageBus

/-- The task for which a frame is carried out. -/
def Frame.owner? : Frame → Option Nat
  | .vacate t => some t
  | .leave t => some t
  | f => f.turn?

theorem Frame.owner?_of_turn {f : Frame} {t : Nat} (own : f.turn? = some t) :
    f.owner? = some t := by
  cases f with
  | vacate _ => cases own
  | leave _ => cases own
  | _ => exact own

theorem Frame.Completes.exists_reply {f : Frame} (completes : f.Completes) :
    ∃ w reply, f = .complete (.task w) reply := by
  cases f with
  | complete caller reply =>
    cases caller with
    | outside => exact completes.elim
    | task w => exact ⟨w, reply, rfl⟩
  | _ => exact completes.elim

/-- What a step of somebody else leaves to a task: it stays at its instruction, and keeps what it
keeps of it, unless it loses everything. -/
structure Task.StaysAt (task task' : Task) : Prop where
  program : task'.program = task.program
  position : task'.position = task.position
  progress : task'.progress = task.progress ∨ task'.progress = .fresh ∨
    ∃ b p before after, task.progress = .waiting b p before after

/-- A reply leads on to a later instruction. -/
theorem Task.lt_position_advance {task : Task} (underway : task.IsUnderway) (reply : Reply) :
    task.position < (task.advance reply).position := by
  unfold advance
  dsimp only
  split
  · exact underway
  · exact Nat.lt_succ_self _

namespace Executor

variable {u : Usage} {x y : Executor} {f g : Frame} {t i b : Nat} {task : Task} {w : Waker}
  {e : Errand Waker} {o : Outcome (Registry Waker) Waker Upshot} {change : Task → Task}
  {frames rest : List Frame} {reply : Reply}

/-! ### Stories -/

/-- Whether a task is at its instruction of this index. -/
def isAt (x : Executor) (t i : Nat) : Bool := (x.tasks[t]?).map (·.position) = some i

/-- This moment, if the next step is one of the task `t` in its instruction `i`. -/
def stepOf (x : Executor) (t i : Nat) : List Executor :=
  if x.stack.head?.bind (·.owner?) = some t ∧ x.isAt t i = true then [x] else []

/-- The reply that the next step gives to the task `t` for its instruction `i`, if it gives one. -/
def replyTo (x : Executor) (t i : Nat) : List Reply :=
  match x.stack with
  | .complete (.task w) reply :: _ => if w.task = t ∧ x.isAt t i = true then [reply] else []
  | _ => []

/-- The runs, with the steps that the task `t` took in its instruction `i` and the replies to it. -/
inductive Story (u : Usage) (t i : Nat) : Executor → List Executor → List Reply → Prop where
  | new (inline : Bool) : Story u t i (new inline) [] []
  | step {x : Executor} {steps : List Executor} {replies : List Reply}
      (story : Story u t i x steps replies) :
    Story u t i x.step (steps ++ x.stepOf t i) (replies ++ x.replyTo t i)
  | ask {x : Executor} {steps : List Executor} {replies : List Reply} {s : Step}
      (story : Story u t i x steps replies) (idle : x.stack = [])
      (lawful : s.Lawful u x.buses.length) :
    Story u t i ({ x with log := [], answer := none }.ask s) steps replies

theorem Story.reachable {steps : List Executor} {replies : List Reply}
    (story : Story u t i x steps replies) : x.Reachable u := by
  induction story with
  | new inline => exact reachable_new u inline
  | step _ ih => exact ih.next .step
  | ask _ idle lawful ih => exact ih.next (.ask idle lawful)

theorem isAt_iff (found : x.tasks[t]? = some task) : x.isAt t i = true ↔ task.position = i := by
  rw [isAt, found]
  simp

theorem stepOf_of_none (none : x.tasks[t]? = none) : x.stepOf t i = [] := by
  refine if_neg fun both => ?_
  rw [isAt, none] at both
  simp at both

theorem replyTo_of_none (none : x.tasks[t]? = none) : x.replyTo t i = [] := by
  rw [replyTo]
  split
  · refine if_neg fun both => ?_
    rw [isAt, none] at both
    simp at both
  · rfl

theorem stepOf_of_ne (found : x.tasks[t]? = some task) (other : task.position ≠ i) :
    x.stepOf t i = [] := if_neg fun both => other ((isAt_iff found).1 both.2)

theorem stepOf_of_own (stack : x.stack = f :: rest) (own : f.owner? = some t)
    (found : x.tasks[t]? = some task) (here : task.position = i) : x.stepOf t i = [x] := by
  refine if_pos ⟨?_, (isAt_iff found).2 here⟩
  rw [stack]
  exact own

theorem replyTo_of_ne (found : x.tasks[t]? = some task) (other : task.position ≠ i) :
    x.replyTo t i = [] := by
  rw [replyTo]
  split
  · exact if_neg fun both => other ((isAt_iff found).1 both.2)
  · rfl

theorem replyTo_of_complete {w : Waker} {reply : Reply}
    (stack : x.stack = .complete (.task w) reply :: rest) (found : x.tasks[w.task]? = some task)
    (here : task.position = i) : x.replyTo w.task i = [reply] := by
  rw [replyTo, stack]
  exact if_pos ⟨rfl, (isAt_iff found).2 here⟩

theorem replyTo_of_other (stack : x.stack = f :: rest) (other : f.turn? ≠ some t) :
    x.replyTo t i = [] := by
  rw [replyTo, stack]
  split
  · rename_i same
    cases same
    exact if_neg fun both => other (congrArg some both.1)
  · rfl

/-! ### Steps of others -/

theorem Quiet.turns (quiet : x.Quiet f t change frames) (member : g ∈ frames)
    {t' : Nat} (own : g.turn? = some t') : f.turn? = some t' ∨
      ∃ w task, g = .proceed w ∧ x.tasks[t']? = some task ∧ task.life = .idle := by
  cases quiet with
  | @begins w task found idle =>
    simp only [List.mem_cons, List.not_mem_nil, or_false] at member
    rcases member with rfl | rfl
    · obtain rfl : w.task = t' := Option.some.inj own
      exact .inr ⟨w, task, rfl, found, idle⟩
    · cases own
  | breaksOff _ _ =>
    cases List.mem_singleton.1 member
    cases own
  | yields _ _ _ =>
    simp only [List.mem_cons, List.not_mem_nil, or_false] at member
    rcases member with rfl | rfl
    · cases own
    · exact .inl own
  | drops _ _ _ _ _ =>
    simp only [List.mem_cons, List.not_mem_nil, or_false] at member
    rcases member with rfl | rfl
    · cases own
    · exact .inl own
  | replies turn _ =>
    cases List.mem_singleton.1 member
    exact .inl (turn.trans own)
  | replaces replaces _ =>
    cases List.mem_singleton.1 member
    cases replaces <;> exact .inl own
  | passes _ | observes _ _ | suspends | finishes => cases member
  | completes _ | collects _ _ | streamEnds _ _ _ _ =>
    cases List.mem_singleton.1 member
    exact .inl own

theorem Replaces.top_eq {stream : Option Stream} {next : Frame}
    (replaces : x.Replaces f t stream next) : f.turn? = some t := by
  cases replaces <;> rfl

/-- Whoever goes on from an errand is in its own turn, or gives up its places. -/
theorem Sequel.top_eq (sequel : x.Sequel f b e o t change frames) :
    f.turn? = some t ∨ f = .vacate t ∧ frames = [.vacate t] ∧ change = (·.giveUpPlace) := by
  cases sequel with
  | abandons forgets =>
    cases forgets with
    | stream replaces _ _ => exact .inl replaces.top_eq
    | place _ _ => exact .inr ⟨rfl, rfl, rfl⟩
  | _ => exact .inl rfl

theorem Sequel.turns (sequel : x.Sequel f b e o t change frames) (member : g ∈ frames) {t' : Nat}
    (own : g.turn? = some t') : f.turn? = some t' := by
  rcases sequel.top_eq with top | ⟨-, rfl, -⟩
  · rw [sequel.turn_eq member own, top]
  · cases List.mem_singleton.1 member
    cases own

/-- In a step that is not its own, a task gets no frame of its turn on the stack unless the turn
begins. -/
theorem Sound.turns_step (sound : x.Sound u) (stack : x.stack = f :: rest)
    (member : g ∈ x.step.stack) (own : g.turn? = some t) : g ∈ rest ∨ f.turn? = some t ∨
      ∃ w task, g = .proceed w ∧ x.tasks[t]? = some task ∧ task.life = .idle := by
  have puts (frames : List Frame) (stack' : x.step.stack = frames ++ rest)
      (others : ∀ g ∈ frames, g.turn? = none) : g ∈ rest := by
    rw [stack', List.mem_append] at member
    refine member.resolve_left fun new => ?_
    cases own.symm.trans (others g new)
  cases x.step_unfolds stack with
  | quiet _ quiet leads =>
    rw [leads.stack, List.mem_append] at member
    exact member.symm.imp_right fun new => quiet.turns new own
  | releases _ leads => exact .inl (puts [] leads.stack (List.forall_mem_nil _))
  | polls _ _ _ leads _ => exact .inl (puts [_, _] leads.stack (by simp [Frame.turn?]))
  | readies _ leads _ _ _ => exact .inl (puts [_] leads.stack (by simp [Frame.turn?]))
  | drains _ _ alive leads _ =>
    refine .inl (puts _ (leads.stack.trans (List.append_cons _ _ _)) ?_)
    rcases alive with rfl | ⟨rfl, -⟩ <;> simp [Frame.turn?]
  | @enters _ _ _ o _ _ frames _ _ sequel leads =>
    rw [leads.stack] at member
    simp only [List.mem_cons, List.mem_append] at member
    rcases member with rfl | rfl | rfl | new | old
    · cases own
    · cases own
    · cases own
    · exact .inr (.inl (sequel.turns new own))
    · exact .inl old
  | fails errand failed _ _ _ _ => exact absurd failed (sound.carried errand)

theorem Sound.kept_beside (sound : x.Sound u) (underway : x.Underway) (stack : x.stack = f :: rest)
    (found : x.tasks[t]? = some task) (other : f.turn? ≠ some t) :
    ∃ task', x.step.tasks[t]? = some task' ∧ task.StaysAt task' := by
  suffices kept : False ∨ ∃ task', x.step.tasks[t]? = some task' ∧ task.StaysAt task' from
    kept.resolve_left id
  refine sound.kept_of_changes found ⟨rfl, rfl, .inl rfl⟩
    (fun f' rest' change frames stack' quiet => ?_)
    fun f' rest' b e o change frames stack' _ sequel => .inr ?_
  · cases stack.symm.trans stack'
    refine ⟨(quiet.ages sound stack found).program, ?_, ?_⟩
    · exact (quiet.keepsPosition underway found).position.resolve_right fun own => other own.2.1
    · cases quiet with
      | breaksOff _ _ => exact .inr (.inl rfl)
      | observes found' progress =>
        cases found.symm.trans found'
        exact .inr (.inr ⟨_, _, _, _, progress⟩)
      | completes _ | collects _ _ | yields _ _ _ => exact absurd rfl other
      | _ => exact .inl rfl
  · cases stack.symm.trans stack'
    obtain ⟨-, -, rfl⟩ := sequel.top_eq.resolve_left other
    refine ⟨(sequel.ages sound stack found).program, ?_, ?_⟩
    · exact (sequel.keepsPosition underway found).position.resolve_right fun own => other own.2.1
    · show (task.giveUpPlace).progress = _ ∨ (task.giveUpPlace).progress = _ ∨ _
      rw [Task.giveUpPlace]
      split
      · exact .inr (.inl rfl)
      · exact .inl rfl

/-- A task with a frame of its turn on the stack is running. -/
theorem Sound.life_of_turn (sound : x.Sound u) (member : f ∈ x.stack) (own : f.turn? = some t)
    (found : x.tasks[t]? = some task) : task.life = .running := by
  have running {frames : List Frame} (stacked : Stacked x.buses.length x.tasks frames)
      (member : f ∈ frames) : task.life = .running := by
    obtain ⟨task', found', running⟩ := stacked.running (stacked.leave_of_turn member own)
    cases found.symm.trans found'
    exact running
  rcases sound.stacked with stacked | ⟨_, _, _, stack, _, _, below⟩
  · exact running stacked member
  · rw [stack] at member
    rcases List.mem_cons.1 member with rfl | later
    · cases own
    · exact running below later

/-- As long as no reply is told, a task stays at its instruction. -/
theorem Sound.position_step (sound : x.Sound u) (underway : x.Underway)
    (stack : x.stack = f :: rest) (found : x.tasks[t]? = some task) (silent : ¬f.Completes) :
    ∃ task', x.step.tasks[t]? = some task' ∧ task'.program = task.program ∧
      task'.position = task.position := by
  suffices kept : False ∨ ∃ task', x.step.tasks[t]? = some task' ∧
      (task'.program = task.program ∧ task'.position = task.position) from kept.resolve_left id
  refine sound.kept_of_changes found ⟨rfl, rfl⟩ (fun f' rest' change frames stack' quiet => ?_)
    fun f' rest' b e o change frames stack' _ sequel => .inr ?_
  · cases stack.symm.trans stack'
    exact ⟨(quiet.ages sound stack found).program,
      (quiet.keepsPosition underway found).position.resolve_right fun own => silent own.1⟩
  · cases stack.symm.trans stack'
    exact ⟨(sequel.ages sound stack found).program,
      (sequel.keepsPosition underway found).position.resolve_right fun own => silent own.1⟩

/-! ### Replies -/

/-- A task is told the reply to its instruction, and goes on with the next. -/
theorem step_complete (stack : x.stack = .complete (.task w) reply :: rest)
    (found : x.tasks[w.task]? = some task) :
    x.step.tasks[w.task]? = some (task.advance reply) ∧ x.step.stack = .proceed w :: rest := by
  let taken : Executor := { x with stack := rest }
  have found' : taken.tasks[w.task]? = some task := found
  rw [step_of_stack_cons stack, perform, withTask_of_found found']
  refine ⟨?_, rfl⟩
  show (x.tasks.modify w.task (·.advance reply))[w.task]? = _
  rw [List.getElem?_modify_eq, found]
  rfl

/-- A task never goes back to an instruction. -/
theorem Sound.past_step (sound : x.Sound u) (underway : x.Underway) (stack : x.stack = f :: rest)
    (found : x.tasks[t]? = some task) (own : f.turn? = some t) (past : i < task.position) :
    ∃ task', x.step.tasks[t]? = some task' ∧ task'.program = task.program ∧
      i < task'.position := by
  by_cases completes : f.Completes
  · obtain ⟨w, reply, rfl⟩ := Frame.Completes.exists_reply completes
    cases own
    obtain ⟨found', -⟩ := step_complete stack found
    have here := underway.within (.complete (.task w) reply) (stack ▸ List.mem_cons_self) trivial _
      task rfl found
    exact ⟨_, found', rfl, past.trans (Task.lt_position_advance here reply)⟩
  · obtain ⟨task', found', program, position⟩ := sound.position_step underway stack found completes
    exact ⟨task', found', program, position ▸ past⟩

/-! ### The story of a script -/

/-- What the task does in its instruction until nothing is left to do, within so many small steps,
and what it is told. -/
def storyWhile (t i : Nat) : Nat → Executor → List Executor × List Reply
  | 0, _ => ([], [])
  | fuel + 1, x =>
    if x.stack.isEmpty then ([], [])
    else
      let later := storyWhile t i fuel x.step
      (x.stepOf t i ++ later.1, x.replyTo t i ++ later.2)

/-- What the task does in its instruction within a script, and what it is told. -/
def storyOfScript (t i : Nat) (x : Executor) : List Step → List Executor × List Reply
  | [] => ([], [])
  | s :: script =>
    let asked := { x with log := [], answer := none }.ask s
    let now := storyWhile t i asked.enough asked
    let later := storyOfScript t i (x.carryOut s) script
    (now.1 ++ later.1, now.2 ++ later.2)

theorem Story.settle {steps : List Executor} {replies : List Reply}
    (story : Story u t i x steps replies) (fuel : Nat) :
    Story u t i (settle fuel x) (steps ++ (storyWhile t i fuel x).1)
      (replies ++ (storyWhile t i fuel x).2) := by
  induction fuel generalizing x steps replies with
  | zero =>
    rw [storyWhile, List.append_nil, List.append_nil]
    exact story
  | succ fuel ih =>
    rw [settle_succ, storyWhile]
    split
    · rw [List.append_nil, List.append_nil]
      exact story
    · rw [← List.append_assoc, ← List.append_assoc]
      exact ih story.step

theorem Story.runScript {steps : List Executor} {replies : List Reply}
    (story : Story u t i x steps replies) {script : List Step} (obeys : x.Obeys u script) :
    Story u t i (x.runScript script).1 (steps ++ (storyOfScript t i x script).1)
      (replies ++ (storyOfScript t i x script).2) := by
  induction script generalizing x steps replies with
  | nil =>
    rw [storyOfScript, List.append_nil, List.append_nil]
    exact story
  | cons s script ih =>
    obtain ⟨idle, lawful, later⟩ := obeys
    rw [storyOfScript, ← List.append_assoc, ← List.append_assoc]
    exact ih ((story.ask (List.isEmpty_iff.1 idle) lawful).settle _) later

end Executor

end MessageBus
