import MessageBus.Proofs.Asks
import Mathlib.Logic.Relation

/-!
# Runs

A run begins with a new executor. It takes small steps, and whenever nothing is left to do it may be
asked for something from outside. Every executor that a run comes by is sound.

Carrying out a script is a run, and whether one may be carried out can be decided.
-/

namespace MessageBus.Executor

variable {u : Usage} {x y : Executor}

/-- How a run goes on: with a small step, or with a request from outside. -/
inductive Next (u : Usage) (x : Executor) : Executor → Prop where
  | step : Next u x x.step
  | ask {s : Step} (idle : x.stack = []) (lawful : s.Lawful u x.buses.length) :
    Next u x ({ x with log := [], answer := none }.ask s)

/-- The executors that a run comes by. -/
def Reachable (u : Usage) (x : Executor) : Prop :=
  ∃ inline, Relation.ReflTransGen (Next u) (new inline) x

theorem sound_new (u : Usage) (inline : Bool) : (new inline).Sound u where
  free b inUse := by
    rcases b with _ | b
    · cases inUse
    · cases inUse
  stacked := .inl .nil
  tasks task member := by cases member
  vacated t task found := by cases found
  balanced b := by
    rcases b with _ | b
    · exact Registry.balanced_empty
    · exact Registry.balanced_empty
  permitted b s member := by cases member

/-- A step of a run keeps an executor sound, and only a small step lets a request go on. -/
theorem Next.sound (next : x.Next u y) (sound : x.Sound u) : y.Sound u ∧
    Goes u (fun b q p => y = x.step ∧ x.Resumes b q p) x y := by
  cases next with
  | step =>
    obtain ⟨kept, goes⟩ := sound.step
    refine ⟨kept, fun b => ?_⟩
    obtain ⟨held, held', before, moves, after⟩ := goes b
    exact ⟨held, held', before, moves.imp fun q p resumes => ⟨rfl, resumes⟩, after⟩
  | ask idle lawful => exact sound.cleared.ask idle lawful

theorem Reachable.sound (reachable : x.Reachable u) : x.Sound u := by
  obtain ⟨inline, run⟩ := reachable
  induction run with
  | refl => exact sound_new u inline
  | tail _ next ih => exact (next.sound ih).1

theorem Reachable.run (reachable : x.Reachable u) (run : Relation.ReflTransGen (Next u) x y) :
    y.Reachable u := by
  obtain ⟨inline, before⟩ := reachable
  exact ⟨inline, before.trans run⟩

theorem Reachable.next (reachable : x.Reachable u) (next : x.Next u y) : y.Reachable u :=
  reachable.run (.single next)

theorem reachable_new (u : Usage) (inline : Bool) : (new inline).Reachable u := ⟨inline, .refl⟩

theorem run_settle (fuel : Nat) : Relation.ReflTransGen (Next u) x (settle fuel x) := by
  induction fuel generalizing x with
  | zero => exact .refl
  | succ fuel ih =>
    rw [settle_succ]
    split
    · exact .refl
    · exact .head .step ih

theorem Reachable.settle (reachable : x.Reachable u) (fuel : Nat) :
    (settle fuel x).Reachable u :=
  reachable.run (run_settle fuel)

/-- Whether each request of a script is lawful, and comes when nothing is left to do. -/
def Obeys (u : Usage) (x : Executor) : List Step → Prop
  | [] => True
  | s :: rest => x.stack.isEmpty = true ∧ s.Lawful u x.buses.length ∧ (x.carryOut s).Obeys u rest

instance decidableObeys [Decidable u.bareWaits] [Decidable u.broadcasts] (x : Executor)
    (script : List Step) : Decidable (x.Obeys u script) :=
  match script with
  | [] => .isTrue trivial
  | s :: rest =>
    have := decidableObeys (x.carryOut s) rest
    inferInstanceAs (Decidable (_ ∧ _ ∧ _))

theorem Reachable.runScript (reachable : x.Reachable u) {script : List Step}
    (obeys : x.Obeys u script) : (x.runScript script).1.Reachable u := by
  induction script generalizing x with
  | nil => exact reachable
  | cons s rest ih =>
    obtain ⟨idle, lawful, later⟩ := obeys
    have asked := reachable.next (.ask (List.isEmpty_iff.1 idle) lawful)
    exact ih (asked.settle _) later

end MessageBus.Executor
