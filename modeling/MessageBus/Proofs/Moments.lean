import MessageBus.Proofs.Upcoming

/-!
# How a run goes on

From where a run has come to, it may go on in many ways. It is followed here as long as what happens
is allowed, by some rule, and the moments that it comes by are written down
(`Executor.Continuation`): each is an executor with what is asked of it then, or a step is taken.
What is allowed can be told from a moment, so a rule may be about the errand that is next, about
what is asked for, or about both.
-/

namespace MessageBus

/-- A moment of a run. If nothing is asked for, a step is taken. -/
structure Moment where
  now : Executor
  asked : Option Step

namespace Moment

/-- The bus that is entered, and on what errand. -/
def errand? (m : Moment) : Option (Nat × Errand Waker) :=
  match m.asked with
  | none => m.now.errand?
  | some s => s.errand?

/-- What is moved on a bus. -/
def moved (b : Nat) (m : Moment) : List Transfer := m.now.moved m.errand? b

/-- The reply that the task `t` is told for its instruction `i`, if it is told one. -/
def replyTo (t i : Nat) (m : Moment) : List Reply :=
  match m.asked with
  | none => m.now.replyTo t i
  | some _ => []

end Moment

/-- What the task `t` is told for its instruction `i` at the moments of a trail. -/
def repliesIn (t i : Nat) (trail : List Moment) : List Reply := trail.flatMap (·.replyTo t i)

/-- What is put into a channel at the moments of a trail. -/
def sentIn (b : Nat) (id : ChannelId) (trail : List Moment) : List Message :=
  trail.flatMap fun m => sentTo id (m.moved b)

theorem repliesIn_concat (t i : Nat) (trail : List Moment) (m : Moment) :
    repliesIn t i (trail ++ [m]) = repliesIn t i trail ++ m.replyTo t i := by
  rw [repliesIn, List.flatMap_append, List.flatMap_singleton]
  rfl

theorem sentIn_concat (b : Nat) (id : ChannelId) (trail : List Moment) (m : Moment) :
    sentIn b id (trail ++ [m]) = sentIn b id trail ++ sentTo id (m.moved b) := by
  rw [sentIn, List.flatMap_append, List.flatMap_singleton]
  rfl

namespace Executor

variable {u : Usage} {Allows : Moment → Prop} {x y : Executor} {trail : List Moment}

/-- The ways in which a run goes on from `x` with nothing but what is allowed, and the moments that
it comes by. -/
inductive Continuation (u : Usage) (Allows : Moment → Prop) (x : Executor) :
    Executor → List Moment → Prop where
  | refl : Continuation u Allows x x []
  | step {y : Executor} {trail : List Moment} (run : Continuation u Allows x y trail)
      (allowed : Allows ⟨y, none⟩) : Continuation u Allows x y.step (trail ++ [⟨y, none⟩])
  | ask {y : Executor} {trail : List Moment} {s : Step} (run : Continuation u Allows x y trail)
      (idle : y.stack = []) (lawful : s.Lawful u y.buses.length) (allowed : Allows ⟨y, some s⟩) :
    Continuation u Allows x ({ y with log := [], answer := none }.ask s) (trail ++ [⟨y, some s⟩])

theorem Continuation.reachable (run : Continuation u Allows x y trail)
    (reachable : x.Reachable u) : y.Reachable u := by
  induction run with
  | refl => exact reachable
  | step _ _ ih => exact ih.next .step
  | ask _ idle lawful _ ih => exact ih.next (.ask idle lawful)

theorem Continuation.inline_eq (run : Continuation u Allows x y trail) (reachable : x.Reachable u) :
    y.inline = x.inline := by
  induction run with
  | refl => rfl
  | step run _ ih => exact (Next.inline_eq .step (run.reachable reachable).sound).trans ih
  | ask run idle lawful _ ih =>
    exact (Next.inline_eq (.ask idle lawful) (run.reachable reachable).sound).trans ih

/-- A moment of a trail is the last one, or it was there before. -/
theorem last_or_earlier {before after : List Moment} {m last : Moment}
    (split : trail ++ [last] = before ++ m :: after) :
    trail = before ∧ last = m ∨ ∃ after, trail = before ++ m :: after := by
  rcases List.eq_nil_or_concat after with rfl | ⟨after, last', rfl⟩
  · obtain ⟨same, lasts⟩ := List.append_inj' split rfl
    exact .inl ⟨same, List.singleton_inj.1 lasts⟩
  · rw [List.concat_eq_append, ← List.cons_append, ← List.append_assoc] at split
    exact .inr ⟨after, (List.append_inj' split rfl).1⟩

/-- Up to each of its moments, a run went on as it was allowed, and so it does then. -/
theorem Continuation.upTo (run : Continuation u Allows x y trail) {before after : List Moment}
    {m : Moment} (split : trail = before ++ m :: after) :
    Continuation u Allows x m.now before ∧ Allows m := by
  induction run generalizing after with
  | refl => simp at split
  | step run allowed ih =>
    rcases last_or_earlier split with ⟨rfl, rfl⟩ | ⟨after, split⟩
    · exact ⟨run, allowed⟩
    · exact ih split
  | ask run _ _ allowed ih =>
    rcases last_or_earlier split with ⟨rfl, rfl⟩ | ⟨after, split⟩
    · exact ⟨run, allowed⟩
    · exact ih split

/-! ### Scripts -/

/-- The moments until nothing is left to do, within so many small steps. -/
def trailWhile : Nat → Executor → List Moment
  | 0, _ => []
  | fuel + 1, x => if x.stack.isEmpty then [] else ⟨x, none⟩ :: trailWhile fuel x.step

/-- The moments that a script comes by. -/
def trailOfScript (x : Executor) : List Step → List Moment
  | [] => []
  | s :: script =>
    let asked := { x with log := [], answer := none }.ask s
    ⟨x, some s⟩ :: (trailWhile asked.enough asked ++ trailOfScript (x.carryOut s) script)

theorem Continuation.settle (run : Continuation u Allows x y trail) (fuel : Nat)
    (allowed : ∀ m ∈ trailWhile fuel y, Allows m) :
    Continuation u Allows x (settle fuel y) (trail ++ trailWhile fuel y) := by
  induction fuel generalizing y trail with
  | zero =>
    rw [trailWhile, List.append_nil]
    exact run
  | succ fuel ih =>
    rw [trailWhile] at allowed ⊢
    rw [settle_succ]
    split
    · rw [List.append_nil]
      exact run
    · rename_i busy
      rw [if_neg busy] at allowed
      obtain ⟨first, later⟩ := List.forall_mem_cons.1 allowed
      rw [List.append_cons]
      exact ih (run.step first) later

theorem Continuation.runScript (run : Continuation u Allows x y trail) {script : List Step}
    (obeys : y.Obeys u script) (allowed : ∀ m ∈ trailOfScript y script, Allows m) :
    Continuation u Allows x (y.runScript script).1 (trail ++ trailOfScript y script) := by
  induction script generalizing y trail with
  | nil =>
    rw [trailOfScript, List.append_nil]
    exact run
  | cons s script ih =>
    obtain ⟨idle, lawful, later⟩ := obeys
    rw [trailOfScript] at allowed ⊢
    obtain ⟨first, others⟩ := List.forall_mem_cons.1 allowed
    obtain ⟨now, then'⟩ := List.forall_mem_append.1 others
    rw [List.append_cons, ← List.append_assoc]
    exact ih ((run.ask (List.isEmpty_iff.1 idle) lawful first).settle _ now) later then'

end Executor

end MessageBus
