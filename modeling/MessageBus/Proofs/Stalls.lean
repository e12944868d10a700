import MessageBus.Proofs.Origins

/-!
# Stalled senders

A broadcast that was called at a channel uses up the wakeup. If it finds another channel in its way
it goes there, and says nothing to the senders that wait behind it. They are *stalled* if a slot is
free and nobody else is still to come: the channel is as it was when the slot became free, but no
wakeup is left. This is the only way in which a channel comes to be stalled, and it stays so until
something else happens to it.
-/

namespace MessageBus.Executor

open Relation

variable {u : Usage} {x y : Executor} {b : Nat} {q : Request} {p : Place} {a : Address}
  {m : Message}

/-- A slot is free and senders wait, but none is outstanding. -/
def Stalled (x : Executor) (b : Nat) (a : Address) : Prop :=
  (∃ c, (x.registry b).find? a = some c ∧ c.hasSpace = true ∧ c.senders.isEmpty = false) ∧
    x.outstanding b a .senders = 0

instance : Decidable (x.Stalled b a) :=
  decidable_of_iff
    (((x.registry b).find? a).any (fun c => c.hasSpace && !c.senders.isEmpty) = true ∧
      x.outstanding b a .senders = 0) <| by
    simp only [Stalled, Option.any_eq_true, Bool.and_eq_true, Bool.not_eq_true']

/-- The next step lets a broadcast go on that was called at a channel, and it is going to wait
elsewhere. It is the only one that is outstanding at the channel, where a slot is free and others
wait. -/
def Swallows (x : Executor) (b : Nat) (a : Address) : Prop :=
  (∃ m p, x.Resumes b (.broadcast m) p ∧ (x.registry b).hasCalled p = true ∧
    p.isAt a .senders = true) ∧
  (∃ a', (x.registry b).blocker? = some a' ∧ a' ≠ a) ∧
  (∃ c, (x.registry b).find? a = some c ∧ c.hasSpace = true ∧ c.senders.isEmpty = false) ∧
  x.outstanding b a .senders = 1

/-- A channel is stalled if no wakeup is spare for its free slot. -/
theorem Sound.stalled_iff (sound : x.Sound u) {c : Channel Waker}
    (found : (x.registry b).find? a = some c) : x.Stalled b a ↔ ¬(x.stand b a c).Spare := by
  rw [sound.spare_iff found]
  constructor
  · rintro ⟨⟨d, found', space, waits⟩, none⟩ spare
    cases found.symm.trans found'
    rcases spare space with empty | due
    · cases ((c.senders.isEmpty_iff_size).2 empty).symm.trans waits
    · exact absurd due (none ▸ Nat.lt_irrefl 0)
  · intro not
    rw [Classical.not_imp, not_or, Nat.not_lt, Nat.le_zero, ← WaitLine.isEmpty_iff_size,
      Bool.not_eq_true] at not
    obtain ⟨space, waits, none⟩ := not
    exact ⟨⟨c, found, space, waits⟩, none⟩

/-- A channel comes to be stalled only if a broadcast swallows its wakeup. -/
theorem Next.swallows (next : x.Next u y) (sound : x.Sound u) (bare : ¬u.bareWaits)
    (calm : ¬x.Stalled b a) (stalled : y.Stalled b a) : y = x.step ∧ x.Swallows b a := by
  have sound' := (next.sound sound).1
  obtain ⟨⟨c', after, space, waits⟩, none⟩ := stalled
  have not := (sound'.stalled_iff after).1 ⟨⟨c', after, space, waits⟩, none⟩
  rcases next.stands sound bare after with
    fresh | ⟨c, found, step | ⟨q, p, a', same, resumes, fits, called, at', blocked, lapse⟩⟩
  · exact absurd (isFresh_spare fresh _ _) not
  · rw [sound.stalled_iff found, not_not] at calm
    exact absurd (step.spare (sound.stand_sound found) calm) not
  · have other : a' ≠ a := by
      intro stays
      exact not (lapse.spare fun moved => moved stays)
    have unchanged : c' = c := (lapse.of_moved other).1
    have one := sound.outstanding_of_lapse sound' found after lapse
    rw [none] at one
    subst unchanged
    obtain ⟨m, rfl⟩ := blocked.isBroadcast fits (Place.isAt_iff.1 at').1 other
    cases blocked with
    | broadcast blocker =>
      exact ⟨same, ⟨m, p, resumes, called, at'⟩, ⟨a', blocker, other⟩, ⟨c', found, space, waits⟩,
        one⟩

/-- A broadcast that swallows the wakeup of a channel leaves it stalled. -/
theorem Swallows.stalls (swallows : x.Swallows b a) (sound : x.Sound u) : x.step.Stalled b a := by
  obtain ⟨⟨m, p, resumes, called, at'⟩, ⟨a', blocker, other⟩, ⟨c, found, space, waits⟩, one⟩ :=
    swallows
  obtain ⟨c', found', same, used, -⟩ :=
    sound.reparked_sender resumes called at' (.broadcast blocker) found
  rcases same with ⟨-, rfl⟩ | ⟨here, -⟩
  · exact ⟨⟨c', found', space, waits⟩, by omega⟩
  · exact absurd here other

/-- Beside a sender that is outstanding nothing is stalled. -/
theorem Sound.not_stalled_of_called (sound : x.Sound u) (resumes : x.Resumes b q p)
    (called : (x.registry b).hasCalled p = true) (at' : p.isAt a .senders = true) :
    ¬x.Stalled b a := by
  intro stalled
  obtain ⟨-, -, beside, -, before, -⟩ := sound.resumed resumes
  have none := stalled.2
  rw [outstanding_eq_called, Registry.called_perm before, Registry.called, List.countP_cons,
    if_pos (by rw [at', called]; rfl)] at none
  exact absurd none (Nat.succ_ne_zero _)

/-- Whether a channel is stalled after a broadcast went on from it is decided by what the broadcast
finds: it has to swallow the wakeup, and this has to be the only one. Later on the channel is
stalled exactly if a broadcast swallowed its wakeup in the meantime, and it has been stalled ever
since. -/
theorem stalled_after_broadcast_iff (reachable : x.Reachable .full)
    (resumes : x.Resumes b (.broadcast m) p) (called : (x.registry b).hasCalled p = true)
    (at' : p.isAt a .senders = true) :
    (x.step.Stalled b a ↔ x.Swallows b a) ∧
      ∀ y, ReflTransGen (Next .full) x.step y → (y.Stalled b a ↔
        ∃ z, ReflTransGen (Next .full) x z ∧ z.Swallows b a ∧
          ReflTransGen (fun v w => v.Next .full w ∧ w.Stalled b a) z.step y) := by
  have sound := reachable.sound
  have calm := sound.not_stalled_of_called resumes called at'
  refine ⟨⟨fun stalled => ?_, fun swallows => swallows.stalls sound⟩, fun y run => ⟨?_, ?_⟩⟩
  · exact (Next.step.swallows sound id calm stalled).2
  · intro stalled
    exact sound.exists_origin (.head .step run) calm stalled fun v w sound next calm stalled =>
      next.swallows sound id calm stalled
  · rintro ⟨z, run, swallows, since⟩
    exact holds_of_since since (swallows.stalls (sound.of_run run))

/-- Two channels are full, and a broadcast waits at the first of them with a sender behind it. When
a message is taken there the broadcast is called, finds the second channel full, and goes there:
the slot stays free and the sender asleep. -/
def broadcastMovesOn : List Step :=
  [.act 0 (.operate (.openChannel 1)), .act 0 (.operate (.openChannel 1)),
    .act 0 (.operate (.tryBroadcast 7)), .spawn [⟨0, .call (.broadcast 1)⟩] false,
    .spawn [⟨0, .call (.send 0 2)⟩] false, .run none, .act 0 (.operate (.tryRecv 0))]

/-- The broadcast is about to go on. -/
def broadcastCalled : Executor :=
  settle 2 ({ ((new false).runScript broadcastMovesOn).1 with log := [], answer := none }.ask
    (.run none))

theorem broadcastCalled_reachable : broadcastCalled.Reachable .full := by
  have obeys : (new false).Obeys .full broadcastMovesOn := by decide +kernel
  have idle : ((new false).runScript broadcastMovesOn).1.stack.isEmpty = true := by decide +kernel
  have reachable := (reachable_new .full false).runScript obeys
  exact (reachable.next (.ask (s := .run none) (List.isEmpty_iff.1 idle) trivial)).settle 2

theorem broadcast_leaves_sender_stalled :
    broadcastCalled.Resumes 0 (.broadcast 1) ⟨⟨0, ⟨0⟩⟩, .senders, ⟨0⟩⟩ ∧
      broadcastCalled.Swallows 0 ⟨0, ⟨0⟩⟩ ∧ broadcastCalled.step.Stalled 0 ⟨0, ⟨0⟩⟩ := by
  have resumes : broadcastCalled.Resumes 0 (.broadcast 1) ⟨⟨0, ⟨0⟩⟩, .senders, ⟨0⟩⟩ := by
    decide +kernel
  have stalled : broadcastCalled.step.Stalled 0 ⟨0, ⟨0⟩⟩ := by decide +kernel
  have iff := stalled_after_broadcast_iff broadcastCalled_reachable resumes (a := ⟨0, ⟨0⟩⟩)
    (by decide +kernel) rfl
  exact ⟨resumes, iff.1.1 stalled, stalled⟩

end MessageBus.Executor
