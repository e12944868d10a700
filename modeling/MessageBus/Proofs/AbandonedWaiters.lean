import MessageBus.Proofs.LeavingOut.Numbers
import MessageBus.Proofs.LeavingOut.Steps
import MessageBus.Proofs.Moments

/-!
# A waiter that was abandoned leaves no trace

A call goes to wait, for space or for messages in a channel that has slots, and is dropped before
anybody wakes it. Meanwhile anything else is done and asked for. Beside this run there is one
without the call: whenever its task goes on with it, the task is suspended instead. In both
everybody else is answered in the same way, the same tasks are woken in the same order, and in the
end the buses are the same, but for the numbers of tickets
(`Executor.abandoned_waiter_leaves_no_trace`). What differs are texts that show tickets, and how
many callers wait, if they are counted while this one does.
-/

namespace MessageBus

/-! ### Runs with their requests -/

/-- What was asked for, and how far it has been carried out. -/
structure Stage where
  asked : Option Step
  now : Executor

namespace Executor

/-- The ways in which a run goes on from `x`, if `go` is what a step does, with every request where
it has been carried out, the latest first. Something holds wherever the run goes on from. -/
inductive Course (u : Usage) (go : Executor → Executor) (Holds : Executor → Prop) (x : Executor) :
    List Stage → Prop where
  | start : Course u go Holds x [⟨none, x⟩]
  | step {asked : Option Step} {y : Executor} {past : List Stage}
      (course : Course u go Holds x (⟨asked, y⟩ :: past)) (holds : Holds y) :
    Course u go Holds x (⟨asked, go y⟩ :: past)
  | ask {asked : Option Step} {y : Executor} {past : List Stage} {s : Step}
      (course : Course u go Holds x (⟨asked, y⟩ :: past)) (holds : Holds y) (idle : y.stack = [])
      (lawful : s.Lawful u y.buses.length) :
    Course u go Holds x
      (⟨some s, ({ y with log := [], answer := none } : Executor).ask s⟩ :: ⟨asked, y⟩ :: past)

variable {u : Usage} {Holds : Executor → Prop} {x y : Executor}

/-- A run that goes on as it is allowed comes by such stages. -/
theorem Continuation.course {trail : List Moment}
    (run : Continuation u (fun moment => Holds moment.now) x y trail) :
    ∃ asked past, Course u Executor.step Holds x (⟨asked, y⟩ :: past) := by
  induction run with
  | refl => exact ⟨none, [], .start⟩
  | step _ allowed ih =>
    obtain ⟨asked, past, course⟩ := ih
    exact ⟨asked, past, course.step allowed⟩
  | ask _ idle lawful allowed ih =>
    obtain ⟨asked, past, course⟩ := ih
    exact ⟨_, _, course.ask allowed idle lawful⟩

/-- Two executors have the same buses, but for the numbers of the tickets on one of them. -/
structure SameBuses (b : Nat) (x y : Executor) : Prop where
  others : ∀ b', b' ≠ b → y.registry b' = x.registry b'
  own : (x.registry b).SameInOrder (y.registry b)

end Executor

/-! ### Beside a run -/

namespace Absentee

open Executor

variable {m : Absentee} {differs : Nat → Nat → Prop} {u : Usage} {w : Waker} {task : Task}
  {rest : List Frame} {x y z : Executor} {σ : Stage} {past : List Stage}

/-- The caller is not woken, and if an instruction shows how many wait while it does, the reply is
among those that may differ. -/
def IsUnnoticed (m : Absentee) (differs : Nat → Nat → Prop) (x : Executor) : Prop :=
  m.IsUncalled x ∧ x.LetsDiffer (m.IsIn x) differs

instance [∀ t i, Decidable (differs t i)] : Decidable (m.IsUnnoticed differs x) :=
  inferInstanceAs (Decidable (_ ∧ _))

/-- Whether the answer to a request may differ: it shows tickets, or how many wait, and the caller
waited when it was asked for. -/
def MayDiffer (m : Absentee) (asked : Option Step) (past : List Stage) : Prop :=
  ∃ s ∈ asked, ∃ σ ∈ past.head?, s.sight.Shows (m.IsIn σ.now)

/-- Two runs that were asked for the same, and carried it out alike. -/
inductive SideBySide (m : Absentee) (differs : Nat → Nat → Prop) :
    List Stage → List Stage → Prop where
  | nil : SideBySide m differs [] []
  | cons {asked : Option Step} {x y : Executor} {past past' : List Stage}
      (alike : x.Alike m.likeness differs (m.MayDiffer asked past) y)
      (pasts : SideBySide m differs past past') :
    SideBySide m differs (⟨asked, x⟩ :: past) (⟨asked, y⟩ :: past')

/-- How far a run has come since the caller came, and another one without the caller beside it. -/
structure GoesBeside (m : Absentee) (differs : Nat → Nat → Prop) (u : Usage) (x : Executor)
    (σ : Stage) (past : List Stage) : Prop where
  reachable : σ.now.Reachable u
  came : m.HasCome σ.now
  beside : ∃ y past', x.Course u (stepWithout m.task) (fun _ => True) (⟨σ.asked, y⟩ :: past') ∧
    m.Trails differs (m.MayDiffer σ.asked past) σ.now y ∧ m.SideBySide differs past past'

theorem Arrives.goesBeside (arrives : m.Arrives x w rest task) (reachable : x.Reachable u) :
    m.GoesBeside differs u x ⟨none, x.step⟩ [] where
  reachable := reachable.next .step
  came := arrives.hasCome reachable
  beside := by
    have nothing : m.MayDiffer none [] = False := by simp [MayDiffer]
    refine ⟨_, [], Course.start.step trivial, ?_, .nil⟩
    rw [nothing]
    exact arrives.trails reachable.sound

theorem GoesBeside.step {asked : Option Step}
    (beside : m.GoesBeside differs u x ⟨asked, y⟩ past) (unnoticed : m.IsUnnoticed differs y)
    (later : m.IsUncalled y.step) : m.GoesBeside differs u x ⟨asked, y.step⟩ past := by
  obtain ⟨reachable, came, z, past', course, trails, pasts⟩ := beside
  obtain ⟨uncalled, shows⟩ := unnoticed
  refine ⟨reachable.next .step, came.next reachable uncalled .step, ?_⟩
  rcases trails.step came reachable.sound uncalled shows later with stays | goes
  · exact ⟨z, past', course, stays, pasts⟩
  · exact ⟨_, past', course.step trivial, goes, pasts⟩

theorem GoesBeside.ask {asked : Option Step} {s : Step}
    (beside : m.GoesBeside differs u x ⟨asked, y⟩ past) (idle : y.stack = [])
    (lawful : s.Lawful u y.buses.length) (uncalled : m.IsUncalled y)
    (later : m.IsUncalled (({ y with log := [], answer := none } : Executor).ask s)) :
    m.GoesBeside differs u x ⟨some s, ({ y with log := [], answer := none } : Executor).ask s⟩
      (⟨asked, y⟩ :: past) := by
  obtain ⟨reachable, came, z, past', course, trails, pasts⟩ := beside
  have alike := trails.alike idle
  have next : y.Next u _ := .ask idle lawful
  refine ⟨reachable.next next, came.next reachable uncalled next, _, _,
    course.ask trivial (alike.idle idle) (alike.length_buses ▸ lawful), ?_, .cons alike pasts⟩
  have own : m.MayDiffer (some s) (⟨asked, y⟩ :: past) = s.sight.Shows (m.IsIn y) := by
    simp [MayDiffer]
  rw [own]
  exact trails_of_alike (came.ask reachable.sound alike idle lawful later)

/-- From where a caller comes, every run in which it is not woken has another one beside it. -/
theorem Arrives.goesBeside_of_course (arrives : m.Arrives x w rest task)
    (reachable : x.Reachable u)
    (course : x.Course u Executor.step (m.IsUnnoticed differs) (σ :: past))
    (uncalled : m.IsUncalled σ.now) :
    σ = ⟨none, x⟩ ∧ past = [] ∨ m.GoesBeside differs u x σ past := by
  generalize stages_eq : σ :: past = stages at course
  induction course generalizing σ past with
  | start =>
    cases stages_eq
    exact .inl ⟨rfl, rfl⟩
  | step _ holds ih =>
    cases stages_eq
    rcases ih holds.1 rfl with ⟨first, rfl⟩ | beside
    · cases first
      exact .inr (arrives.goesBeside reachable)
    · exact .inr (beside.step holds uncalled)
  | ask _ holds idle lawful ih =>
    cases stages_eq
    rcases ih holds.1 rfl with ⟨first, -⟩ | beside
    · cases first
      cases idle.symm.trans arrives.stack
    · exact .inr (beside.ask idle lawful holds.1 uncalled)

/-- Where all is done and the caller is gone, the buses are as they are without it. -/
theorem HasCome.sameBuses {asked : Prop} (came : m.HasCome x) (gone : ¬m.IsIn x)
    (alike : x.Alike m.likeness differs asked y) : x.SameBuses m.bus y where
  others b other := by
    have buses := alike.buses b
    rw [registry, registry]
    generalize x.buses[b]? = before at buses ⊢
    generalize y.buses[b]? = after at buses ⊢
    cases buses with
    | none => rfl
    | some buses => exact buses.registry.trans (leftOut_of_ne other _)
  own := by
    have registry : y.registry m.bus = m.leftOut m.bus (x.registry m.bus) :=
      alike.registry came.inside
    rw [registry, leftOut_self]
    exact Registry.sameInOrder_leavingOut (came.gone gone).out

end Absentee

namespace Executor

variable {m : Absentee} {differs : Nat → Nat → Prop} {u : Usage} {w : Waker} {task : Task}
  {rest : List Frame} {x y : Executor} {asked : Option Step} {past : List Stage}

/-- A call goes to wait, for space or for messages in a channel that has slots, and it waits no more
when the run has come to its end, though it was never woken. Then there is the same run without it,
in which all that was asked for is carried out alike: the same is answered and told, and the same
tasks are woken in the same order. Replies may differ in texts that show tickets, and in how many
callers wait, where they are counted while this one does; `differs` says which instructions do
either. At the end the buses are the same, but for the numbers of tickets. -/
theorem abandoned_waiter_leaves_no_trace (reachable : x.Reachable u)
    (arrives : m.Arrives x w rest task)
    (run : x.Course u Executor.step (m.IsUnnoticed differs) (⟨asked, y⟩ :: past))
    (idle : y.stack = []) (gone : ¬m.IsIn y) :
    ∃ z past', x.Course u (stepWithout m.task) (fun _ => True) (⟨asked, z⟩ :: past') ∧
      z.stack = [] ∧ m.SideBySide differs (⟨asked, y⟩ :: past) (⟨asked, z⟩ :: past') ∧
      y.SameBuses m.bus z := by
  rcases arrives.goesBeside_of_course reachable run fun isIn => absurd isIn gone with
    ⟨first, -⟩ | ⟨-, came, z, past', course, trails, pasts⟩
  · cases first
    cases idle.symm.trans arrives.stack
  · have alike := trails.alike idle
    exact ⟨z, past', course, alike.idle idle, .cons alike pasts, came.sameBuses gone alike⟩

/-- A channel has one slot, which is taken, and a task is to send there. -/
def takingTheSlot : List Step :=
  [.act 0 (.operate (.openChannel 1)), .act 0 (.operate (.trySend 0 7)),
    .spawn [⟨0, .call (.send 0 8)⟩] false]

/-- The task is about to begin with its call. -/
def aboutToSend : Executor :=
  settle 2 (({ ((new false).runScript takingTheSlot).1 with log := [], answer := none } :
    Executor).ask (.run none))

/-- Another task counts those who wait to send, and sends as well. The first one is dropped, and
then there is a slot. -/
def droppingTheSender : List Step :=
  [.spawn [⟨0, .act (.operate (.waiting .senders 0))⟩, ⟨0, .call (.send 0 9)⟩] false, .run none,
    .act 0 (.drop 0), .act 0 (.operate (.tryRecv 0)), .run none]

def droppedSender : Absentee where
  task := 0
  bus := 0
  request := .send ⟨0, ⟨0⟩⟩ 8
  place := ⟨⟨0, ⟨0⟩⟩, .senders, ⟨0⟩⟩
  recorded := true

theorem dropped_sender_leaves_no_trace : ∃ y asked past,
    aboutToSend.Course .full Executor.step (droppedSender.IsUnnoticed fun t i => t = 1 ∧ i = 0)
      (⟨asked, y⟩ :: past) ∧
    ∃ z past', aboutToSend.Course .full (stepWithout 0) (fun _ => True) (⟨asked, z⟩ :: past') ∧
      z.stack = [] ∧
      droppedSender.SideBySide (fun t i => t = 1 ∧ i = 0) (⟨asked, y⟩ :: past)
        (⟨asked, z⟩ :: past') ∧
      y.SameBuses 0 z := by
  have obeys : (new false).Obeys .full takingTheSlot := by decide +kernel
  have ready : ((new false).runScript takingTheSlot).1.stack.isEmpty = true := by decide +kernel
  have reachable : aboutToSend.Reachable .full :=
    (((reachable_new .full false).runScript obeys).next
      (.ask (s := .run none) (List.isEmpty_iff.1 ready) trivial)).settle 2
  have arrives : droppedSender.Arrives aboutToSend ⟨0, 0⟩ _ _ :=
    ⟨rfl, rfl, rfl, rfl, by decide +kernel, fun receives => absurd receives (by decide)⟩
  have waits : ∀ moment ∈ trailWhile 20 aboutToSend,
      droppedSender.IsUnnoticed (fun t i => t = 1 ∧ i = 0) moment.now := by decide +kernel
  have obeys' : (settle 20 aboutToSend).Obeys .full droppingTheSender := by decide +kernel
  have unnoticed : ∀ moment ∈ trailOfScript (settle 20 aboutToSend) droppingTheSender,
      droppedSender.IsUnnoticed (fun t i => t = 1 ∧ i = 0) moment.now := by decide +kernel
  obtain ⟨asked, past, course⟩ :=
    ((Continuation.refl.settle 20 waits).runScript obeys' unnoticed).course
  have idle : ((settle 20 aboutToSend).runScript droppingTheSender).1.stack.isEmpty = true := by
    decide +kernel
  have gone : ¬droppedSender.IsIn ((settle 20 aboutToSend).runScript droppingTheSender).1 := by
    decide +kernel
  exact ⟨_, asked, past, course,
    abandoned_waiter_leaves_no_trace reachable arrives course (List.isEmpty_iff.1 idle) gone⟩

end Executor

end MessageBus
