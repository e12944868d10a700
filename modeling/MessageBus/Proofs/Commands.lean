import MessageBus.Fifo.Command
import Mathlib.Data.List.Basic

/-!
# Commands one after another

`runAll` carries out a list of commands, whatever they are commands to: it collects the answers, and
each command finds the state that the one before it left.

Of a queue this says that it is first in, first out: all that was put in, in order, is all that was
taken out, in order, and then what is still there. A command that moves several items is a shorter
way to write the commands that move them one by one (`Fifo.MovesAsEach`).
-/

namespace MessageBus

section

variable {σ γ α : Type} (run : σ → γ → α × σ)

/-- Carries out commands one after another: what they are answered, and the state that they
leave. -/
def runAll (s : σ) : List γ → List α × σ
  | [] => ([], s)
  | c :: later =>
    let ran := run s c
    let rest := runAll ran.2 later
    (ran.1 :: rest.1, rest.2)

@[simp] theorem runAll_nil (s : σ) : runAll run s [] = ([], s) := rfl

theorem runAll_cons (s : σ) (c : γ) (later : List γ) :
    runAll run s (c :: later) =
      ((run s c).1 :: (runAll run (run s c).2 later).1, (runAll run (run s c).2 later).2) := rfl

end

namespace Fifo

variable {α : Type}

/-- The items that a command puts in. -/
def Command.putIn : Command α → List α
  | .push a => [a]
  | .pushMany as => as
  | .pop | .popMany _ => []

/-- The items that come with an answer. -/
def Answer.takenOut : Answer α → List α
  | .item a => a.toList
  | .items as => as
  | .nothing | .fault _ => []

/-- A queue that is asked for more than it holds says so. -/
theorem popMany_of_lt {q : Fifo α} {n : Nat} (h : q.size < n) :
    q.popMany n = .error (.overdraw n q.size) := if_neg (Nat.not_le_of_lt h)

namespace Command

theorem run_popMany_of_le {q : Fifo α} {n : Nat} (h : n ≤ q.size) :
    run q (.popMany n) = (.items (q.items.take n), ⟨q.items.drop n⟩) := by
  rw [run, popMany_of_le h]

theorem run_popMany_of_lt {q : Fifo α} {n : Nat} (h : q.size < n) :
    run q (.popMany n) = (.fault (.overdraw n q.size), q) := by
  rw [run, popMany_of_lt h]

/-- What a queue holds and then what is put in, is what is taken out and then what is left. -/
theorem run_conserves (q : Fifo α) (c : Command α) :
    q.items ++ c.putIn = (run q c).1.takenOut ++ (run q c).2.items := by
  cases c with
  | push a => rfl
  | pushMany as => rfl
  | pop =>
    rw [putIn, List.append_nil]
    rcases q with ⟨_ | ⟨a, rest⟩⟩ <;> rfl
  | popMany n =>
    rw [putIn, List.append_nil]
    rcases Nat.lt_or_ge q.size n with more | enough
    · rw [run_popMany_of_lt more]
      rfl
    · rw [run_popMany_of_le enough]
      exact (List.take_append_drop n q.items).symm

theorem runAll_conserves (q : Fifo α) (commands : List (Command α)) :
    q.items ++ commands.flatMap (·.putIn) =
      (runAll run q commands).1.flatMap (·.takenOut) ++ (runAll run q commands).2.items := by
  induction commands generalizing q with
  | nil => exact List.append_nil _
  | cons c later ih =>
    rw [runAll_cons, List.flatMap_cons, List.flatMap_cons, ← List.append_assoc, run_conserves,
      List.append_assoc, ih, ← List.append_assoc]

/-- Items that are pushed one by one go to the end in their order. -/
theorem runAll_push (q : Fifo α) (as : List α) :
    runAll run q (as.map .push) =
      (List.replicate as.length .nothing, ⟨q.items ++ as⟩) := by
  induction as generalizing q with
  | nil => simp
  | cons a as ih =>
    rw [List.map_cons, runAll_cons, run, ih (q.push a), Fifo.push, List.append_assoc]
    rfl

/-- Items that are popped one by one come out in the order in which they stand. -/
theorem runAll_pop {q : Fifo α} {n : Nat} (h : n ≤ q.size) :
    runAll run q (List.replicate n .pop) =
      ((q.items.take n).map fun a => .item (some a), ⟨q.items.drop n⟩) := by
  induction n generalizing q with
  | zero => rfl
  | succ n ih =>
    rcases q with ⟨_ | ⟨a, rest⟩⟩
    · cases h
    · have left : n ≤ (⟨rest⟩ : Fifo α).size := Nat.le_of_succ_le_succ h
      rw [List.replicate_succ, runAll_cons]
      show (Answer.item (some a) :: (runAll run ⟨rest⟩ _).1, (runAll run ⟨rest⟩ _).2) = _
      rw [ih left]
      rfl

end Command

/-- A command that moves several items does what the commands do that move them one by one. -/
structure MovesAsEach (q : Fifo α) : Prop where
  pushMany : ∀ as, ∃ q', Command.run q (.pushMany as) = (.nothing, q') ∧
    runAll Command.run q (as.map .push) = (List.replicate as.length .nothing, q')
  popMany : ∀ n, n ≤ q.size → ∃ as q', Command.run q (.popMany n) = (.items as, q') ∧
    runAll Command.run q (List.replicate n .pop) = (as.map fun a => .item (some a), q')
  /-- It may be done in two parts. -/
  split : ∀ n m, n + m ≤ q.size → ∃ as bs q',
    Command.run q (.popMany (n + m)) = (.items (as ++ bs), q') ∧
    runAll Command.run q [.popMany n, .popMany m] = ([.items as, .items bs], q')
  /-- It is refused exactly if it asks for more than there is, and then nothing is moved. -/
  overdraw : ∀ n, Command.run q (.popMany n) = (.fault (.overdraw n q.size), q) ↔ q.size < n

theorem movesAsEach (q : Fifo α) : q.MovesAsEach where
  pushMany as := ⟨_, rfl, Command.runAll_push q as⟩
  popMany n enough := ⟨_, _, Command.run_popMany_of_le enough, Command.runAll_pop enough⟩
  split n m enough := by
    have first : n ≤ q.size := Nat.le_trans (Nat.le_add_right n m) enough
    have second : m ≤ (⟨q.items.drop n⟩ : Fifo α).size := by
      rw [size, List.length_drop]
      exact Nat.le_sub_of_add_le' enough
    refine ⟨q.items.take n, (q.items.drop n).take m, ⟨(q.items.drop n).drop m⟩, ?_, ?_⟩
    · rw [Command.run_popMany_of_le enough, List.take_add, List.drop_drop]
    · rw [runAll_cons, Command.run_popMany_of_le first, runAll_cons,
        Command.run_popMany_of_le second]
      rfl
  overdraw n := by
    refine ⟨fun refused => ?_, Command.run_popMany_of_lt⟩
    by_contra within
    rw [Command.run_popMany_of_le (Nat.le_of_not_lt within)] at refused
    cases refused

/-- Whatever commands a queue was given since it was empty, what was put in, in order, is what was
taken out, in order, and then what it holds. A batch moves the same items as its single commands. -/
theorem first_in_first_out (commands : List (Command α)) :
    let ran := runAll Command.run empty commands
    commands.flatMap (·.putIn) = ran.1.flatMap (·.takenOut) ++ ran.2.items ∧
      ran.2.MovesAsEach :=
  ⟨Command.runAll_conserves empty commands, movesAsEach _⟩

/-- A batch that asks for too much takes nothing, so the next one finds all that is there. -/
example : runAll Command.run (empty : Fifo Nat)
    [.pushMany [1, 2, 3], .pop, .popMany 3, .push 4, .popMany 3] =
      ([.nothing, .item (some 1), .fault (.overdraw 3 2), .nothing, .items [2, 3, 4]], ⟨[]⟩) := rfl

end Fifo

end MessageBus
