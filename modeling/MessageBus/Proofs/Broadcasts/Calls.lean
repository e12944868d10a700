import MessageBus.Proofs.Broadcasts.Attempts
import MessageBus.Proofs.Stories.Calls

/-!
# A broadcast puts its message in once

However often a broadcast is suspended and goes on, only one of its steps puts its message anywhere,
and that step puts it into every channel that is open at that moment (`Executor.CommitsBroadcast`).
It is the step after which the task is told that the broadcast was granted. A broadcast that was
refused, that still waits, or that was given up while it waited has moved nothing.

It is the story of a call (`Executor.Fate`), read for the one request that has no address.
-/

namespace MessageBus.Executor

variable {u : Usage} {x : Executor} {t i b : Nat} {task : Task} {m : Message}
  {steps : List Executor} {replies : List Reply} {v : Value}

/-- Whether the next step serves every open channel of a bus with a message, all of which accept it,
and changes nothing else on any bus. -/
structure CommitsBroadcast (x : Executor) (b : Nat) (m : Message) : Prop where
  some : (x.registry b).channels ≠ []
  accepted : ∀ c ∈ (x.registry b).channels, c.acceptsBroadcast = true
  served : x.step.registry b = (x.registry b).served m true
  others : ∀ b' ≠ b, x.step.registry b' = x.registry b'
  /-- At each channel those are called next who have waited longest. -/
  calls : ∃ rest, x.step.stack = .release b :: .wake ((x.registry b).oldest true) :: rest

/-- A step that grants a broadcast commits it. -/
theorem Grants.commits (grants : x.Grants b (.broadcast m) v) :
    v = .nothing ∧ x.CommitsBroadcast b m := by
  obtain ⟨o, attempts, answer, changes⟩ := grants
  have whole := (x.registry b).allOrNothing_attemptBroadcast m
  cases attempts
  rw [Outcome.answer_map] at answer
  rcases (x.registry b).answer_attemptBroadcast m with granted | ⟨-, failed⟩ | ⟨a, blocked, -⟩
  · rw [granted] at answer
    cases answer
    obtain ⟨some, accepted⟩ := whole.iff.1 granted
    obtain ⟨served, oldest⟩ := whole.all granted
    exact ⟨rfl, some, accepted, changes.registry.trans served, changes.others,
      oldest ▸ changes.calls⟩
  · rw [failed] at answer
    cases answer
  · rw [blocked] at answer
    cases answer

/-- One of these steps commits the broadcast, and the others move nothing. -/
def CommitsOnce (b : Nat) (m : Message) (steps : List Executor) : Prop :=
  ∃ before z after, steps = before ++ z :: after ∧ z.CommitsBroadcast b m ∧
    ∀ y ∈ before ++ after, y.MovesNothing

theorem CarriedOut.commitsOnce (carried : CarriedOut t b (.broadcast m) v steps) :
    v = .nothing ∧ CommitsOnce b m steps := by
  obtain ⟨q, ⟨_, _, _, -, -, -, resolved⟩, before, z, after, split, grants, others⟩ := carried
  cases resolved
  exact ⟨grants.commits.1, before, z, after, split, grants.commits.2,
    fun y member => (others y member).silent⟩

/-- The story of a broadcast: its replies, and what the steps of its task in it have come to. A
broadcast that was refused, and one whose task is not in the middle of a turn, because it waits or
was dropped, has moved nothing. -/
structure IsExact (b : Nat) (m : Message) (task : Task) (steps : List Executor)
    (replies : List Reply) : Prop where
  ending : replies = [] ∨ replies = [.granted .nothing] ∨ ∃ e, replies = [.refused e]
  granted : replies = [.granted .nothing] → CommitsOnce b m steps
  refused : ∀ e, replies = [.refused e] → ∀ y ∈ steps, y.MovesNothing
  pending : replies = [] → task.life ≠ .running → ∀ y ∈ steps, y.MovesNothing
  running : replies = [] → task.life = .running →
    CommitsOnce b m steps ∨ ∀ y ∈ steps, y.MovesNothing

theorem Fate.isExact (fate : Fate t i b (.broadcast m) x task steps replies)
    (sound : x.Sound u) (found : x.tasks[t]? = some task) : IsExact b m task steps replies := by
  have answered := fate.isAnswered sound found
  have granted (v : Value) (granted : replies = [.granted v]) :
      v = .nothing ∧ CommitsOnce b m steps := (answered.granted v granted).commitsOnce
  have silent (rests : ∀ y ∈ steps, y.Rests) : ∀ y ∈ steps, y.MovesNothing := fun y member =>
    (rests y member).silent
  refine ⟨?_, fun now => (granted _ now).2, fun e refused => ?_,
    fun none stopped => silent (answered.pending none stopped), fun none running => ?_⟩
  · rcases answered.ending with none | ⟨v, now⟩ | refused
    · exact .inl none
    · exact .inr (.inl ((granted v now).1 ▸ now))
    · exact .inr (.inr ⟨_, refused⟩)
  · rcases answered.ending with none | ⟨v, now⟩ | failed
    · cases none.symm.trans refused
    · cases now.symm.trans refused
    · exact silent (answered.refused failed)
  · exact (answered.running none running).imp (fun ⟨v, carried⟩ => carried.commitsOnce.2) silent

/-- A broadcast is all or nothing. On every registry, either form commits exactly if a channel is
open and every open channel admits it; then each of them is served and nothing else changes, and
otherwise nothing happens at all, and whoever may wait is told the first channel in its way. In
every run, a call that broadcasts puts its message in once, into all channels open at that moment,
if it is granted, and nowhere if it is refused, waits or was dropped. -/
theorem broadcasts_are_all_or_nothing :
    (∀ {ω : Type} (r : Registry ω) (m : Message),
      r.AllOrNothing m (·.hasSpace) false ((r.tryBroadcast m).answer = .ok ())
        (r.tryBroadcast m) ∧
      (∀ e, (r.tryBroadcast m).answer = .error e →
        e = if r.channels = [] then .noSuchChannel else .wouldBlock) ∧
      r.AllOrNothing m (·.acceptsBroadcast) true ((r.attemptBroadcast m).answer = .ok none)
        (r.attemptBroadcast m) ∧
      ((r.attemptBroadcast m).answer = .ok none ∨
        (r.channels = [] ∧ (r.attemptBroadcast m).answer = .error .noSuchChannel) ∨
          ∃ a, (r.attemptBroadcast m).answer = .ok (some a) ∧ r.FirstBlocker a)) ∧
    ∀ {u : Usage} {t i b : Nat} {m : Message} {x : Executor} {task : Task}
      {steps : List Executor} {replies : List Reply}, Story u t i x steps replies →
      x.tasks[t]? = some task → task.program[i]? = some ⟨b, .call (.broadcast m)⟩ →
      IsExact b m task steps replies := by
  constructor
  · intro ω r m
    exact ⟨r.allOrNothing_tryBroadcast m, fun _ => Registry.refused_tryBroadcast,
      r.allOrNothing_attemptBroadcast m, r.answer_attemptBroadcast m⟩
  · intro u t i b m x task steps replies story found call
    exact (story.fate found call).isExact story.reachable.sound found

/-- A broadcast waits for the first of two channels. Once there is a free slot it goes ahead, and a
receiver at the other channel gets its message. -/
def broadcastHeldUp : List Step :=
  [.act 0 (.operate (.openChannel 1)), .act 0 (.operate (.openChannel 1)),
    .act 0 (.operate (.trySend 0 7)), .spawn [⟨0, .call (.broadcast 5)⟩] false,
    .spawn [⟨0, .call (.recv 1)⟩] false, .run none, .act 0 (.operate (.tryRecv 0)), .run none]

theorem broadcast_put_in_once : ∃ x steps replies, Story .full 0 0 x steps replies ∧
    replies = [.granted .nothing] ∧ 1 < steps.length ∧ CommitsOnce 0 5 steps ∧
      ((x.registry 0).channels.map (·.queue.items)) = [[5], []] := by
  have obeys : (new false).Obeys .full broadcastHeldUp := by decide +kernel
  have story := (Story.new (u := .full) (t := 0) (i := 0) false).runScript obeys
  obtain ⟨task, found, call⟩ : ∃ task,
      ((new false).runScript broadcastHeldUp).1.tasks[0]? = some task ∧
        task.program[0]? = some ⟨0, .call (.broadcast 5)⟩ := by
    have program : (((new false).runScript broadcastHeldUp).1.tasks[0]?).map (·.program) =
        some [⟨0, .call (.broadcast 5)⟩] := by decide +kernel
    obtain ⟨task, found, program⟩ := Option.map_eq_some_iff.1 program
    exact ⟨task, found, by rw [program]; rfl⟩
  have ends := broadcasts_are_all_or_nothing.2 story found call
  have once : (storyOfScript 0 0 (new false) broadcastHeldUp).2.length = 1 := by decide +kernel
  have fine : (storyOfScript 0 0 (new false) broadcastHeldUp).2.all
      (fun reply => ErrorCode.none.afterReply reply = .none) = true := by decide +kernel
  have told : [] ++ (storyOfScript 0 0 (new false) broadcastHeldUp).2 = [.granted .nothing] := by
    rcases ends.ending with none | granted | ⟨e, refused⟩
    · rw [List.nil_append] at none
      cases (congrArg List.length none).symm.trans once
    · exact granted
    · rw [List.nil_append] at refused
      rw [refused] at fine
      exact absurd (of_decide_eq_true (List.all_eq_true.1 fine _ List.mem_cons_self))
        (BusError.code_ne_none e)
  exact ⟨_, _, _, story, told, by decide +kernel, ends.granted told, by decide +kernel⟩

end MessageBus.Executor
