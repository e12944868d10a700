import MessageBus.Proofs.Identities
import MessageBus.Proofs.Ledgers

/-!
# What stays of a bus

Whatever a step does to a bus, some things are settled for good. A channel that is gone does not
come back, nor does anybody come back to a line that he left (`Registry.Succeeds`), and the bound of
a channel is the one with which it was opened (`Registry.Moves.capacity`).
-/

namespace MessageBus

/-- What a step or a request leaves of a bus: the identities that are gone do not come back, nor do
those who have left their line. -/
structure Registry.Succeeds {ω : Type} (r r' : Registry ω) : Prop where
  precedes : r.Precedes r'
  issues : r.nextTicket ≤ r'.nextTicket
  queued : ∀ p : Place, p.ticket.number < r.nextTicket → r'.isQueued p = true →
    r.isQueued p = true

/-- A channel that is gone is gone for good, if its identity was given out. -/
theorem Registry.Succeeds.find?_eq_none {ω : Type} {r r' : Registry ω} (later : r.Succeeds r')
    {a : Address} (gone : r.find? a = none) (issued : a.id.number < r.nextId) :
    r'.find? a = none := by
  cases after : r'.find? a with
  | none => rfl
  | some c =>
    rcases later.precedes.old a c after with ⟨c', before⟩ | new
    · cases gone.symm.trans before
    · exact absurd issued (Nat.not_lt_of_le new)

theorem Executor.Next.succeeds {u : Usage} {x y : Executor} (next : x.Next u y)
    (reachable : x.Reachable u) (b : Nat) : (x.registry b).Succeeds (y.registry b) := by
  obtain ⟨sound, goes⟩ := next.sound reachable.sound
  refine ⟨(reachable.arises.precedes (.single next.follows) b).2, (goes.issues b).1,
    fun p issued queued => ?_⟩
  by_contra out
  have new := Registry.mem_leaving_iff.2 ⟨queued, by simpa using out⟩
  exact absurd issued (Nat.not_lt_of_le (goes.new_ticket reachable.sound sound new).2)

/-! ### The bound of a channel -/

namespace Registry

variable {ω : Type} {r r' : Registry ω} {held held' : List Stay} {u : Usage}
  {resumed : Request → Place → Prop} {a b : Address} {c d : Channel ω}

theorem capacity_of_put (found : r.find? b = some d) (same : c.id = d.id)
    (capacity : c.capacity = d.capacity) {c' : Channel ω}
    (after : (r.put b.handle c).find? a = some c') :
    ∃ c, r.find? a = some c ∧ c'.capacity = c.capacity := by
  rcases find?_put_cases found same after with ⟨rfl, rfl⟩ | ⟨-, before⟩
  · exact ⟨d, found, capacity⟩
  · exact ⟨c', before, rfl⟩

end Registry

theorem Channel.Handled.capacity {ω : Type} {c c' : Channel ω} (handled : c.Handled c') :
    c'.capacity = c.capacity := by
  cases handled with
  | untouched => rfl
  | committed _ => exact (c.becomes_commit _).capacity
  | sentMany space => exact (Channel.becomes_trySendMany space _).capacity
  | received some => exact (Channel.becomes_tryRecv some).2.capacity
  | @receivedMany limit o some ran =>
    obtain ⟨o', _, ran', -, becomes⟩ := Channel.becomes_tryRecvMany some limit
    cases ran.symm.trans ran'
    exact becomes.capacity

theorem Request.Granted.capacity {ω : Type} {q : Request} {r r' : Registry ω}
    (granted : q.Granted r r') {a : Address} {c' : Channel ω} (after : r'.find? a = some c') :
    ∃ c, r.find? a = some c ∧ c'.capacity = c.capacity := by
  have put {b : Address} {c d : Channel ω} {q s l : Nat} (found : r.find? b = some c)
      (becomes : c.Becomes d q s l) (after : (r.put b.handle d).find? a = some c') :
      ∃ c, r.find? a = some c ∧ c'.capacity = c.capacity :=
    Registry.capacity_of_put found becomes.shrinks.1 becomes.capacity after
  cases granted with
  | send found _ => exact put found (Channel.becomes_commit_cascade _ _) after
  | sendMany found space => exact put found (Channel.becomes_trySendMany space _) after
  | recv found some => exact put found (Channel.becomes_tryRecv some).2 after
  | @recvMany _ _ limit c o found some ran =>
    obtain ⟨o', _, ran', -, becomes⟩ := Channel.becomes_recvManyStep some limit
    cases ran.symm.trans ran'
    exact put found becomes after
  | broadcast _ =>
    rw [Registry.find?_commitAll] at after
    obtain ⟨c, found, rfl⟩ := Option.map_eq_some_iff.1 after
    exact ⟨c, found, (c.becomes_commit_cascade _).capacity⟩

namespace Registry

variable {ω : Type} {r r' : Registry ω} {held held' : List Stay} {u : Usage}
  {resumed : Request → Place → Prop} {a : Address} {c' : Channel ω}

/-- A channel that is there after a step is new, or its bound is what it was. -/
theorem Moves.capacity (moves : Moves u resumed r held r' held') (after : r'.find? a = some c') :
    c'.IsFresh ∨ ∃ c, r.find? a = some c ∧ c'.capacity = c.capacity := by
  have joined {b : Address} {c : Channel ω} {k : ω} {side : Side} (found : r.find? b = some c)
      (after : (r.issue.put b.handle (c.join ⟨r.nextTicket⟩ k side)).find? a = some c') :
      ∃ c, r.find? a = some c ∧ c'.capacity = c.capacity := by
    refine capacity_of_put (r := r.issue) found (c.id_join _ k side) ?_ after
    cases side with
    | senders => rfl
    | receivers => exact (c.sizes_join_receivers _ k).2.1
  have placed {p : Place} {c : Channel ω} {l : WaitLine ω} (found : r.find? p.address = some c)
      (after : (r.put p.address.handle (c.setLine p.side l)).find? a = some c') :
      ∃ c, r.find? a = some c ∧ c'.capacity = c.capacity :=
    capacity_of_put found (c.id_setLine _ _) (by cases p.side <;> rfl) after
  cases moves with
  | handled handles =>
    rcases handles.2 a c' after with fresh | ⟨c, before, same⟩
    · exact .inl fresh
    · exact .inr ⟨c, before, same.capacity⟩
  | granted _ _ granted => exact .inr (granted.capacity after)
  | parked _ _ _ found _ => exact .inr (joined found after)
  | visited queued =>
    obtain ⟨c, l, found, -, -, state⟩ := revisit_of_queued queued _
    rw [state] at after
    exact .inr (placed found after)
  | @abandoned s _ =>
    rcases r.standing_cases s.place with queued | called | gone
    · obtain ⟨c, l, found, -, -, state⟩ := abandon_of_queued queued
      rw [state] at after
      exact .inr (placed found after)
    · obtain ⟨c, found, state⟩ := abandon_of_called called
      rw [state] at after
      exact .inr (placed found after)
    · rw [abandon_of_gone gone] at after
      exact .inr ⟨c', after, rfl⟩
  | waits _ found => exact .inr (joined found after)
  | rest => exact .inr ⟨c', after, rfl⟩
  | gone _ => exact .inr ⟨c', after, rfl⟩
  | issued => exact .inr ⟨c', after, rfl⟩
  | woke _ => exact .inr ⟨c', after, rfl⟩

end Registry

/-- A channel where somebody is in a line was there before, with the same bound. -/
theorem Executor.Next.capacity {u : Usage} {x y : Executor} {b : Nat} {p : Place}
    {c' : Channel Waker} (next : x.Next u y) (sound : x.Sound u)
    (queued : (y.registry b).isQueued p = true)
    (after : (y.registry b).find? p.address = some c') :
    ∃ c, (x.registry b).find? p.address = some c ∧ c'.capacity = c.capacity := by
  obtain ⟨_, goes⟩ := next.sound sound
  obtain ⟨_, _, -, moves, -⟩ := goes b
  rcases moves.capacity after with fresh | same
  · rw [Registry.isQueued_of_find? after, fresh.tickets] at queued
    cases queued
  · exact same

end MessageBus
