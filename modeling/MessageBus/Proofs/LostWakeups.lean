import MessageBus.Proofs.Outstanding

/-!
# No wakeup is lost

On the side of the receivers no wakeup is ever lost: while receivers wait at a channel, as many of
those that were called are outstanding as there are messages. On the side of the senders the same
holds as long as no broadcast waits. One sender is called for a receive, however many slots it
freed, and that is enough, since whoever is called passes it on.
-/

namespace MessageBus.Executor

variable {u : Usage} {x : Executor} {b : Nat} {a : Address} {c : Channel Waker}

/-- Receivers are covered in every run. -/
theorem Reachable.covered (reachable : x.Reachable u) (bare : ¬u.bareWaits)
    (found : (x.registry b).find? a = some c) : (x.stand b a c).Covered := by
  obtain ⟨inline, run⟩ := reachable
  induction run generalizing c with
  | refl => cases (find?_new inline b a).symm.trans found
  | @tail y z run next ih =>
    have sound := Reachable.sound ⟨inline, run⟩
    rcases next.stands sound bare found with
      fresh | ⟨c, before, step | ⟨_, _, _, _, _, _, _, _, _, lapse⟩⟩
    · exact isFresh_covered fresh _ _
    · exact step.covered (ih before)
    · exact lapse.covered (ih before)

/-- Without broadcasts that may wait, a called sender is found for every free slot. -/
theorem Reachable.spare (reachable : x.Reachable u) (bare : ¬u.bareWaits)
    (broadcasts : ¬u.broadcasts) (found : (x.registry b).find? a = some c) :
    (x.stand b a c).Spare := by
  obtain ⟨inline, run⟩ := reachable
  induction run generalizing c with
  | refl => cases (find?_new inline b a).symm.trans found
  | @tail y z run next ih =>
    have sound := Reachable.sound ⟨inline, run⟩
    rcases next.stands sound bare found with
      fresh | ⟨c, before, step | ⟨q, p, a', _, resumes, fits, _, at', blocked, lapse⟩⟩
    · exact isFresh_spare fresh _ _
    · exact step.spare (sound.stand_sound before) (ih before)
    · refine lapse.spare fun other => ?_
      -- Only a broadcast can move on to another channel.
      obtain ⟨m, rfl⟩ := blocked.isBroadcast fits (Place.isAt_iff.1 at').1 other
      exact broadcasts (sound.permits_of_resumes resumes)

/-- Of the receivers that were called at a channel, at least as many are outstanding as there are
messages, unless nobody waits. In particular a receiver never waits beside a message unless another
one is still to come. -/
theorem called_receivers_cover_messages (reachable : x.Reachable .full)
    (found : (x.registry b).find? a = some c) :
    (c.receivers.isEmpty = true ∨ c.size ≤ x.outstanding b a .receivers) ∧
      (0 < c.size → c.receivers.isEmpty = false → 0 < x.outstanding b a .receivers) := by
  have covered : c.receivers.isEmpty = true ∨ c.size ≤ x.outstanding b a .receivers := by
    rw [WaitLine.isEmpty_iff_size, Channel.size]
    exact (reachable.sound.covered_iff found).1 (reachable.covered id found)
  refine ⟨covered, fun some waits => ?_⟩
  rcases covered with none | enough
  · cases none.symm.trans waits
  · exact Nat.lt_of_lt_of_le some enough

/-- Two receivers wait, and a message comes: one of them is called, and the other waits beside the
message. -/
def messageForTwo : List Step :=
  [.act 0 (.operate (.openChannel 1)), .spawn [⟨0, .call (.recv 0)⟩] false,
    .spawn [⟨0, .call (.recv 0)⟩] false, .run none, .act 0 (.operate (.trySend 0 7))]

theorem called_receiver_for_message : ∃ c,
    (((new false).runScript messageForTwo).1.registry 0).find? ⟨0, ⟨0⟩⟩ = some c ∧ c.size = 1 ∧
      c.receivers.isEmpty = false ∧
      0 < ((new false).runScript messageForTwo).1.outstanding 0 ⟨0, ⟨0⟩⟩ .receivers := by
  have obeys : (new false).Obeys .full messageForTwo := by decide +kernel
  have reachable := (reachable_new .full false).runScript obeys
  have stands : ((((new false).runScript messageForTwo).1.registry 0).find? ⟨0, ⟨0⟩⟩).map
      (fun c => (c.size, c.receivers.isEmpty)) = some (1, false) := by decide +kernel
  obtain ⟨c, found, numbers⟩ := Option.map_eq_some_iff.1 stands
  obtain ⟨size, waits⟩ := Prod.ext_iff.1 numbers
  have some : 0 < c.size := Nat.lt_of_lt_of_eq Nat.one_pos size.symm
  exact ⟨c, found, size, waits, (called_receivers_cover_messages reachable found).2 some waits⟩

/-- Without broadcasts that may wait, no sender waits beside a free slot unless another one was
called and is outstanding. -/
theorem called_sender_for_free_slot (reachable : x.Reachable .withoutBroadcasts)
    (found : (x.registry b).find? a = some c) :
    c.freeSlots = 0 ∨ c.senders.isEmpty = true ∨ 0 < x.outstanding b a .senders := by
  by_cases full : c.freeSlots = 0
  · exact .inl full
  · have space := (c.hasSpace_iff_freeSlots).2 full
    have spare := (reachable.sound.spare_iff found).1 (reachable.spare id id found)
    rw [WaitLine.isEmpty_iff_size]
    exact .inr (spare space)

/-- Three senders wait at a full channel of two slots, and a batch receive frees both: one sender is
called, and the other two wait beside the free slots. -/
def slotsForThree : List Step :=
  [.act 0 (.operate (.openChannel 2)), .act 0 (.operate (.trySendMany 0 [1, 2])),
    .spawn [⟨0, .call (.send 0 3)⟩] false, .spawn [⟨0, .call (.sendMany 0 [])⟩] false,
    .spawn [⟨0, .call (.send 0 4)⟩] false, .run none, .act 0 (.operate (.tryRecvMany 0 5))]

theorem called_sender_for_two_slots : ∃ c,
    (((new false).runScript slotsForThree).1.registry 0).find? ⟨0, ⟨0⟩⟩ = some c ∧
      c.freeSlots = 2 ∧ c.senders.isEmpty = false ∧
      0 < ((new false).runScript slotsForThree).1.outstanding 0 ⟨0, ⟨0⟩⟩ .senders := by
  have obeys : (new false).Obeys .withoutBroadcasts slotsForThree := by decide +kernel
  have reachable := (reachable_new .withoutBroadcasts false).runScript obeys
  have stands : ((((new false).runScript slotsForThree).1.registry 0).find? ⟨0, ⟨0⟩⟩).map
      (fun c => (c.freeSlots, c.senders.isEmpty)) = some (2, false) := by decide +kernel
  obtain ⟨c, found, numbers⟩ := Option.map_eq_some_iff.1 stands
  obtain ⟨free, waits⟩ := Prod.ext_iff.1 numbers
  refine ⟨c, found, free, waits, ?_⟩
  rcases called_sender_for_free_slot reachable found with full | none | due
  · cases free.symm.trans full
  · cases waits.symm.trans none
  · exact due

end MessageBus.Executor
