import MessageBus.Proofs.Runs

/-!
# Lines are in the order of parking

Tickets are given out in ascending order, and whoever takes one goes to the end of a line. Nothing
is ever put anywhere else: a caller that is looked at keeps its turn, and one that is called or
gives up its place is taken out. So the tickets of a line ascend, and whoever stands further in
front has parked earlier.
-/

namespace MessageBus

namespace Registry

variable {ω : Type} {r r' : Registry ω} {held held' : List Stay} {u : Usage}
  {resumed : Request → Place → Prop}

/-- The tickets of every line ascend. -/
def InParkOrder (r : Registry ω) : Prop :=
  ∀ a c side, r.find? a = some c → (c.tickets side).Pairwise (·.number < ·.number)

theorem inParkOrder_empty : (empty : Registry ω).InParkOrder := nofun

theorem Moves.inParkOrder (moves : Moves u resumed r held r' held') (bal : r.Balanced held)
    (order : r.InParkOrder) : r'.InParkOrder := by
  intro a c' side after
  rcases moves.shrinks_or_joins after with fresh | ⟨c, found, shrinks | ⟨k, s, rfl⟩⟩
  · rw [fresh.tickets]
    exact .nil
  · exact (order a c side found).sublist (shrinks.2 side)
  · rcases c.tickets_join ⟨r.nextTicket⟩ k s side with sub | ⟨-, longer⟩
    · exact (order a c side found).sublist sub
    · rw [longer, List.pairwise_append]
      refine ⟨order a c side found, List.pairwise_singleton _ _, fun t inside t' last => ?_⟩
      rw [List.mem_singleton.1 last]
      exact bal.number_lt found inside

end Registry

namespace Executor

variable {u : Usage} {x y : Executor}

theorem Goes.inParkOrder {resumed : Nat → Request → Place → Prop} (goes : Goes u resumed x y)
    (sound : x.Sound u) {b : Nat} (order : (x.registry b).InParkOrder) :
    (y.registry b).InParkOrder := by
  obtain ⟨held, held', before, moves, -⟩ := goes b
  exact moves.inParkOrder ((sound.balanced b).perm before) order

/-- In every run, each line is in the order in which its callers parked. -/
theorem Reachable.inParkOrder (reachable : x.Reachable u) (b : Nat) :
    (x.registry b).InParkOrder := by
  obtain ⟨inline, run⟩ := reachable
  induction run with
  | refl =>
    rcases b with _ | b
    · exact Registry.inParkOrder_empty
    · exact Registry.inParkOrder_empty
  | tail run next ih =>
    have sound := Reachable.sound ⟨inline, run⟩
    exact (next.sound sound).2.inParkOrder sound ih

end Executor

end MessageBus
