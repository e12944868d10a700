import MessageBus.Proofs.AnyRun
import MessageBus.Proofs.Catalogue.Simulation

/-!
# Errands that the catalogue does not show

Whoever takes a place, looks at one or gives one up changes the waiting lines and nothing else, so
the catalogue of the bus stays as it is.
-/

namespace MessageBus

namespace Registry

variable {ω : Type} {r : Registry ω} {a : Address} {c c' : Channel ω} {p : Place} {k : ω}
  {side : Side}

theorem catalogue_put_of_store (found : r.find? a = some c) (same : c'.store = c.store) :
    (r.put a.handle c').catalogue = r.catalogue := by
  obtain ⟨there, -⟩ := find?_eq_some_iff.1 found
  rw [catalogue_put there, same]
  exact Catalogue.put_of_store? (by rw [store?_catalogue, there]; rfl)

theorem store_join (c : Channel ω) (t : Ticket) (k : ω) (side : Side) :
    (c.join t k side).store = c.store := by
  cases side with
  | senders => rfl
  | receivers =>
    rw [Channel.join, Channel.receiverParked]
    split <;> rfl

theorem catalogue_park {o : Outcome (Registry ω) ω (Option Place)}
    (ran : r.park a side k = .ok o) : o.state.catalogue = r.catalogue := by
  cases found : r.find? a with
  | none =>
    cases ran.symm.trans (park_of_gone found side k)
    rfl
  | some c =>
    rw [(joins_of_park found ran).state]
    exact catalogue_put_of_store (r := r.issue) found (store_join c _ k side)

theorem catalogue_revisit (r : Registry ω) (p : Place) (k : ω) :
    (r.revisit p k).state.catalogue = r.catalogue := by
  rcases r.standing_cases p with queued | called | gone
  · obtain ⟨c, l, found, -, -, state⟩ := revisit_of_queued queued k
    rw [state]
    exact catalogue_put_of_store found (c.store_setLine _ _)
  · rw [(revisit_of_called called k).2]
  · rw [(revisit_of_gone gone k).2]

theorem catalogue_abandon (r : Registry ω) (p : Place) :
    (r.abandon p).state.catalogue = r.catalogue := by
  rw [abandon]
  split
  · rfl
  · rename_i found
    split
    · exact catalogue_put_of_store found (Channel.store_setLine _ _ _)
    · exact catalogue_put_of_store found (Channel.store_wakeFirst _ _)

end Registry

namespace Executor

variable {x : Executor} {b : Nat} {e : Errand Waker}

/-- Whether the next step brings no message to any bus and takes none from it. -/
def MovesNothing (x : Executor) : Prop :=
  ∀ b, (x.step.registry b).catalogue = (x.registry b).catalogue

theorem movesNothing_of_none (none : x.errand? = none) : x.MovesNothing := by
  intro b
  rw [registry_step, none]
  rfl

theorem movesNothing_of_errand (errand : x.errand? = some (b, e))
    (kept : ∀ o, e.effect (x.registry b) = .ok o → o.state.catalogue = (x.registry b).catalogue) :
    x.MovesNothing := by
  intro b'
  rcases registry_of_errand errand b' with same | ⟨rfl, o, ran, state⟩
  · rw [same]
  · rw [state, kept o ran]

end Executor

end MessageBus
