import MessageBus.Proofs.Asides
import MessageBus.Proofs.Instructions

/-!
# One step of the executor

Every small step keeps an executor sound, and lets each bus make at most one move
(`Sound.step`). There is one lemma for each kind of frame. In particular no access ever finds its
bus in use, and no turn is broken off.
-/

namespace MessageBus

namespace Executor

variable {u : Usage} {resumed : Nat → Request → Place → Prop} {x y : Executor} {b t : Nat}
  {w : Waker} {task : Task} {f : Frame} {frames rest : List Frame}

/-- A request goes on from its place in the next step. -/
def Resumes (x : Executor) (b : Nat) (q : Request) (p : Place) : Prop :=
  ∃ w rest task recorded, x.stack = .proceed w :: rest ∧ x.tasks[w.task]? = some task ∧
    task.progress = .calling b q (some p) recorded

/-! ### Frames of a turn -/

namespace InTurn

theorem withTask_after (turn : x.InTurn u f t task rest) (go : Task → Executor) :
    turn.after.withTask t go = go task := by
  exact withTask_of_found (x := turn.after) turn.found go

theorem step (turn : x.InTurn u f t task rest) : x.step = turn.after.perform f :=
  step_of_stack_cons turn.stack

theorem proceeds (turn : x.InTurn u (.proceed w) w.task task rest) :
    x.step.Sound u ∧ Goes u x.Resumes x x.step := by
  have sound := turn.task_sound
  have next : x.step = turn.after.proceed w task := turn.step.trans (turn.withTask_after _)
  rw [next, proceed]
  cases progress : task.progress with
  | fresh =>
    dsimp only
    have settled := Task.callStay_of_fresh progress
    cases current : task.current? with
    | none =>
      refine turn.replaces settled (fun s member => by cases member) rfl ?_
      rw [Frame.Suits, Task.places, Task.streamPlace]
      exact congrArg (·.toList ++ []) (Task.callPlace_eq_none settled)
    | some i => exact turn.starts progress (sound.program i (List.mem_of_getElem? current))
  | calling bus q prior recorded =>
    have calling := sound.progress
    rw [progress] at calling
    have holds := Task.callStay_of_calling progress
    obtain ⟨o, ran, looked⟩ := Request.look_looked (turn.sound.balanced bus) q prior w
    have again : ∀ p ∈ prior, q.side = .senders → x.Resumes bus q p := by
      intro p place _
      rw [place] at progress
      exact ⟨w, .leave w.task :: rest, task, recorded, turn.stack, turn.found, progress⟩
    cases prior with
    | none => exact turn.looks q none calling.1 calling.2 holds recorded again ran looked
    | some p => exact turn.looks q (some p) calling.1 calling.2 holds recorded again ran looked
  | yielded => exact turn.replies (by rw [Task.callStay, progress]) _
  | collecting items => exact turn.pollsStream (by rw [Task.callStay, progress])
  | waiting bus p before after => exact turn.looksAtWait progress

theorem suspends (turn : x.InTurn u (.suspend t) t task rest) :
    x.step.Sound u ∧ Goes u x.Resumes x x.step := by
  have sound := turn.task_sound
  rw [turn.step]
  exact turn.ends (turn.tasks_modify _) (.alone rfl fun b => rfl)
    ⟨sound.program, sound.progress, sound.stream⟩ rfl (fun running => by cases running)
    fun ended => by cases ended

theorem finishes (turn : x.InTurn u (.finish t) t task rest) :
    x.step.Sound u ∧ Goes u x.Resumes x x.step := by
  have sound := turn.task_sound
  rw [turn.step]
  exact turn.ends (turn.tasks_modify _) (.alone rfl fun b => rfl)
    ⟨sound.program, sound.progress, sound.stream⟩ rfl (fun running => by cases running)
    fun _ => turn.suits

theorem completes {reply : Reply} (turn : x.InTurn u (.complete (.task w) reply) w.task task rest) :
    x.step.Sound u ∧ Goes u x.Resumes x x.step := by
  have sound := turn.task_sound
  have settled : task.callStay = none := Task.callStay_eq_none turn.suits
  have next := turn.step.trans (turn.withTask_after _)
  have does : Does (fun x => ((x.happen (.completed w.task task.position reply)).modifyTask w.task
      (·.advance reply)).push [.proceed w]) w.task (·.advance reply) ([] ++ [.proceed w]) :=
    fun x => ⟨rfl, rfl, rfl⟩
  rw [next]
  refine turn.alone [] does (List.forall_mem_nil _) rfl trivial
    ⟨⟨sound.program, trivial, sound.stream⟩, rfl⟩ fun b => ?_
  rw [Task.staysOn, Task.staysOn, settled]
  rfl

theorem receivesItem {item : Option Message}
    (turn : x.InTurn u (.receive w item) w.task task rest) :
    x.step.Sound u ∧ Goes u x.Resumes x x.step := by
  have sound := turn.task_sound
  have settled : task.callStay = none := Task.callStay_eq_none turn.suits
  have next : x.step = turn.after.receive w task item := turn.step.trans (turn.withTask_after _)
  rw [next, receive]
  split
  · cases item with
    | none => exact turn.replies settled _
    | some m =>
      have does (items : List Message) : Does (fun x => (x.keep w.task (.collecting items)).push
          [.proceed w]) w.task ({ · with progress := .collecting items }) ([] ++ [.proceed w]) :=
        fun x => ⟨rfl, rfl, rfl⟩
      refine turn.alone [] (does _) (List.forall_mem_nil _) rfl trivial
        ⟨⟨sound.program, trivial, sound.stream⟩, rfl⟩ fun b => ?_
      rw [Task.staysOn, Task.staysOn, settled]
      rfl
  · exact turn.replies settled _

theorem adopts {s : Stream} (turn : x.InTurn u (.adopt w s) w.task task rest) :
    x.step.Sound u ∧ Goes u x.Resumes x x.step := by
  obtain ⟨free, inside, fresh⟩ := turn.suits
  rw [turn.step]
  refine turn.replaces (Task.callStay_eq_none free) (fun s' same => ?_) rfl free
  cases same
  exact ⟨inside, fresh⟩

theorem concludes {before : String} {after : List String} {a : Address} {side : Side}
    {result : Except BusError Unit}
    (turn : x.InTurn u (.conclude w before after b a side result) w.task task rest) :
    x.step.Sound u ∧ Goes u x.Resumes x x.step := by
  rw [turn.step]
  exact turn.replies (Task.callStay_eq_none turn.suits) _

end InTurn

/-- Every step keeps an executor sound, and every bus makes a move or none. -/
theorem Sound.step (sound : x.Sound u) : x.step.Sound u ∧ Goes u x.Resumes x x.step := by
  cases stack : x.stack with
  | nil =>
    rw [step_of_stack_nil stack]
    exact ⟨sound, goes_of_same (fun _ => rfl) fun _ => .refl _⟩
  | cons f frames =>
    cases f with
    | release b => exact sound.releases stack
    | wake wakers => exact sound.wakes stack
    | tell notes => exact sound.tells stack
    | poll w => exact sound.polls stack
    | observe t => exact sound.observes stack
    | vacate t => exact sound.vacates stack
    | leave t => exact sound.leaves stack
    | drain limit polled => exact sound.drains stack
    | verdict t => exact sound.judges stack
    | proceed w =>
      obtain ⟨task, rest, -, turn⟩ := sound.inTurn stack rfl
      exact turn.proceeds
    | suspend t =>
      obtain ⟨task, rest, -, turn⟩ := sound.inTurn stack rfl
      exact turn.suspends
    | finish t =>
      obtain ⟨task, rest, -, turn⟩ := sound.inTurn stack rfl
      exact turn.finishes
    | receive w item =>
      obtain ⟨task, rest, -, turn⟩ := sound.inTurn stack rfl
      exact turn.receivesItem
    | adopt w s =>
      obtain ⟨task, rest, -, turn⟩ := sound.inTurn stack rfl
      exact turn.adopts
    | conclude w before after b a side result =>
      obtain ⟨task, rest, -, turn⟩ := sound.inTurn stack rfl
      exact turn.concludes
    | complete caller reply =>
      cases caller with
      | outside =>
        rw [step_of_stack_cons stack]
        exact sound.quiet stack rfl rfl rfl (List.nil_append frames).symm (List.forall_mem_nil _)
      | task w =>
        obtain ⟨task, rest, -, turn⟩ := sound.inTurn stack rfl
        exact turn.completes

end Executor

end MessageBus
