import MessageBus.Proofs.AnyRun
import MessageBus.Proofs.Moments

/-!
# Runs written down as lists

A run of any kind is a list of moves, each a small step or something that is asked for. From one
executor the same moves lead to the same executor, by the same moments (`Executor.trailOf`). What
any run comes to, is what some moves lead to from a new executor (`Executor.arises_iff`).
-/

namespace MessageBus.Executor

variable {x : Executor}

/-- Goes on by one move: if nothing is asked for, a small step is taken. -/
def follow (x : Executor) : Option Step → Executor
  | none => x.step
  | some s => { x with log := [], answer := none }.ask s

/-- Goes on by one move after the other. -/
def followAll (x : Executor) (moves : List (Option Step)) : Executor := moves.foldl follow x

/-- The moments that these moves come by. -/
def trailOf (x : Executor) : List (Option Step) → List Moment
  | [] => []
  | move :: moves => ⟨x, move⟩ :: (x.follow move).trailOf moves

theorem follows_follow (x : Executor) (move : Option Step) : x.Follows (x.follow move) := by
  cases move with
  | none => exact .step
  | some s => exact .ask s

theorem followAll_concat (x : Executor) (moves : List (Option Step)) (move : Option Step) :
    x.followAll (moves ++ [move]) = (x.followAll moves).follow move := by
  rw [followAll, List.foldl_append]
  rfl

theorem trailOf_concat (x : Executor) (moves : List (Option Step)) (move : Option Step) :
    x.trailOf (moves ++ [move]) = x.trailOf moves ++ [⟨x.followAll moves, move⟩] := by
  induction moves generalizing x with
  | nil => rfl
  | cons first moves ih => exact congrArg (⟨x, first⟩ :: ·) (ih _)

/-- The errand of a move, whatever it is, is all that it does to a registry. -/
theorem registry_follow (x : Executor) (move : Option Step) (b : Nat) :
    (x.follow move).registry b =
      ((x.outcomeOn (Moment.errand? ⟨x, move⟩) b).map (·.state)).getD (x.registry b) := by
  cases move with
  | none => exact x.registry_step b
  | some s => exact registry_ask { x with log := [], answer := none } s b

theorem Arises.followAll (arises : x.Arises) (moves : List (Option Step)) :
    (x.followAll moves).Arises := by
  induction moves generalizing x with
  | nil => exact arises
  | cons move moves ih => exact ih (arises.follows (x.follows_follow move))

theorem arises_iff : x.Arises ↔ ∃ inline moves, x = (new inline).followAll moves := by
  constructor
  · rintro ⟨inline, run⟩
    refine ⟨inline, ?_⟩
    induction run with
    | refl => exact ⟨[], rfl⟩
    | tail _ follows ih =>
      obtain ⟨moves, rfl⟩ := ih
      cases follows with
      | step => exact ⟨moves ++ [none], by rw [followAll_concat]; rfl⟩
      | ask s => exact ⟨moves ++ [some s], by rw [followAll_concat]; rfl⟩
  · rintro ⟨inline, moves, rfl⟩
    exact (arises_new inline).followAll moves

end MessageBus.Executor
