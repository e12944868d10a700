import MessageBus.Proofs.Attendance.Runs
import MessageBus.Proofs.LostWakeups

/-!
# When nobody is ready any more

An executor is dry if nobody is ready, and nobody is about to go on or to give up a place. Then
whoever holds a place stands in its line, so no wakeup is outstanding. Since wakeups are not lost, a
receiver waits only at an empty channel, and a sender only at a full one.
-/

namespace MessageBus

/-- Whether no task goes on for a frame, and none gives up a place. -/
def Frame.IsCalm : Frame → Prop
  | .wake wakers => wakers = []
  | .poll _ => False
  | .proceed _ => False
  | .vacate _ => False
  | _ => True

theorem Frame.IsCalm.not_attends {f : Frame} {t : Nat} (calm : f.IsCalm) : ¬f.Attends t := by
  intro attends
  cases f with
  | wake wakers =>
    obtain ⟨w, member, -⟩ := attends
    rw [show wakers = [] from calm] at member
    cases member
  | poll _ => exact calm
  | proceed _ => exact calm
  | _ => exact attends

namespace Executor

variable {u : Usage} {x : Executor} {b : Nat} {a : Address} {side : Side} {p : Place}
  {c : Channel Waker}

/-- Nobody is ready, and nobody is about to go on or to give up a place. So it is when the list of
those that are ready has run out and nothing is left to do. -/
structure IsDry (x : Executor) : Prop where
  ready : x.ready = []
  calm : ∀ f ∈ x.stack, f.IsCalm

/-- Somebody waits in a line of a channel: a task holds a place there. -/
def Waits (x : Executor) (b : Nat) (a : Address) (side : Side) : Prop :=
  ∃ p ∈ x.held b, p.isAt a side = true

theorem isDry_of_idle (ready : x.ready = []) (idle : x.stack = []) : x.IsDry :=
  ⟨ready, by rw [idle]; exact List.forall_mem_nil _⟩

/-- When nobody is ready any more, whoever holds a place stands in its line. -/
theorem IsDry.isQueued (dry : x.IsDry) (sound : x.Sound u) (att : x.Attentive)
    (holds : p ∈ x.held b) : (x.registry b).isQueued p = true := by
  obtain ⟨t, holds⟩ := mem_held_iff.1 holds
  obtain ⟨task, found⟩ := exists_of_mem_placesOf holds
  rw [placesOf_of_found found] at holds
  have alive : task.life ≠ .ended := by
    intro ended
    rcases sound.vacated t task found ended with none | vacates
    · exact List.ne_nil_of_mem holds none
    · exact dry.calm _ vacates
  rcases att.attended t task found alive b p holds with queued | ready | ⟨f, member, attends⟩
  · exact queued
  · rw [dry.ready] at ready
    cases ready
  · exact absurd attends (dry.calm f member).not_attends

/-- So nothing is outstanding. -/
theorem IsDry.outstanding (dry : x.IsDry) (sound : x.Sound u) (att : x.Attentive) (b : Nat)
    (a : Address) (side : Side) : x.outstanding b a side = 0 := by
  refine outstanding_eq_zero (fun held member bus _ => ?_) a
  have holds : held.2 ∈ x.held b := mem_onBus_iff.2 (bus ▸ member)
  rw [← Bool.not_eq_true]
  intro called
  have out := Registry.isQueued_eq_false_of_hasCalled called
  cases out.symm.trans (dry.isQueued sound att holds)

/-- Whoever waits at a channel is in its line. -/
theorem IsDry.size_pos (dry : x.IsDry) (sound : x.Sound u) (att : x.Attentive)
    (found : (x.registry b).find? a = some c) (waits : x.Waits b a side) :
    (c.line side).size ≠ 0 := by
  obtain ⟨p, holds, at'⟩ := waits
  obtain ⟨rfl, rfl⟩ := Place.isAt_iff.1 at'
  have queued := (Registry.isQueued_of_find? found).1 (dry.isQueued sound att holds)
  rw [← WaitLine.length_tickets]
  exact Nat.ne_of_gt (List.length_pos_of_mem queued)

/-- A run without broadcasts that may wait does not stall. When nobody is ready any more, the
channels at which receivers wait are empty, and those at which senders wait are full. So at a
channel with slots receivers and senders do not both wait. -/
theorem waits_only_at_empty_or_full (reachable : x.Reachable .withoutBroadcasts)
    (never : x.NeverPeeks) (dry : x.IsDry) (found : (x.registry b).find? a = some c) :
    (x.Waits b a .receivers → c.size = 0) ∧ (x.Waits b a .senders → c.freeSlots = 0) ∧
      (0 < c.capacity → ¬(x.Waits b a .senders ∧ x.Waits b a .receivers)) := by
  have sound := reachable.sound
  have att := reachable.attentive id never
  have empty (waits : x.Waits b a .receivers) : c.size = 0 := by
    have covered := (sound.covered_iff found).1 (reachable.covered id found)
    rw [dry.outstanding sound att] at covered
    exact Nat.le_zero.1 (covered.resolve_left (dry.size_pos sound att found waits))
  have full (waits : x.Waits b a .senders) : c.freeSlots = 0 := by
    by_contra free
    have space := (c.hasSpace_iff_freeSlots).2 free
    have spare := (sound.spare_iff found).1 (reachable.spare id id found) space
    rw [dry.outstanding sound att] at spare
    exact spare.elim (dry.size_pos sound att found waits) (Nat.lt_irrefl 0)
  refine ⟨empty, full, fun slots ⟨senders, receivers⟩ => ?_⟩
  have none : c.queue.size = 0 := empty receivers
  have full := full senders
  rw [Channel.freeSlots, none] at full
  omega

/-- One task sends to a channel of one slot again and again, another waits for an item of a stream,
and a third waits at the same channel until it is dropped. The first is told to go on once in vain,
and then for a slot. -/
def sendAndStream : List Step :=
  [.act 0 (.operate (.openChannel 1)), .act 0 (.operate (.openChannel 1)),
    .spawn [⟨0, .call (.send 0 1)⟩, ⟨0, .call (.sendMany 0 [2, 3])⟩, ⟨0, .call (.send 0 4)⟩] false,
    .spawn [⟨0, .stream 1⟩, ⟨0, .next⟩] false,
    .spawn [⟨0, .yield⟩, ⟨0, .call (.recv 1)⟩] false, .run none, .poll ⟨0, 3⟩, .act 0 (.drop 2),
    .act 0 (.operate (.tryRecv 0)), .run none]

theorem waits_after_send_and_stream : ∃ c d,
    (((new true).runScript sendAndStream).1.registry 0).find? ⟨0, ⟨0⟩⟩ = some c ∧
      (((new true).runScript sendAndStream).1.registry 0).find? ⟨1, ⟨1⟩⟩ = some d ∧
      ((new true).runScript sendAndStream).1.Waits 0 ⟨0, ⟨0⟩⟩ .senders ∧ c.freeSlots = 0 ∧
      ((new true).runScript sendAndStream).1.Waits 0 ⟨1, ⟨1⟩⟩ .receivers ∧ d.size = 0 := by
  have obeys : (new true).Obeys .withoutBroadcasts sendAndStream := by decide +kernel
  have reachable := (reachable_new .withoutBroadcasts true).runScript obeys
  have never : ((new true).runScript sendAndStream).1.NeverPeeks := by
    unfold NeverPeeks
    decide +kernel
  have ready : ((new true).runScript sendAndStream).1.ready = [] := by decide +kernel
  have idle : ((new true).runScript sendAndStream).1.stack.isEmpty = true := by decide +kernel
  have dry := isDry_of_idle ready (List.isEmpty_iff.1 idle)
  have senders : ((new true).runScript sendAndStream).1.Waits 0 ⟨0, ⟨0⟩⟩ .senders := by
    unfold Waits
    decide +kernel
  have receivers : ((new true).runScript sendAndStream).1.Waits 0 ⟨1, ⟨1⟩⟩ .receivers := by
    unfold Waits
    decide +kernel
  have there : ((((new true).runScript sendAndStream).1.registry 0).find? ⟨0, ⟨0⟩⟩).isSome ∧
      ((((new true).runScript sendAndStream).1.registry 0).find? ⟨1, ⟨1⟩⟩).isSome := by
    decide +kernel
  obtain ⟨c, found⟩ := Option.isSome_iff_exists.1 there.1
  obtain ⟨d, found'⟩ := Option.isSome_iff_exists.1 there.2
  exact ⟨c, d, found, found', senders,
    (waits_only_at_empty_or_full reachable never dry found).2.1 senders, receivers,
    (waits_only_at_empty_or_full reachable never dry found').1 receivers⟩

end Executor

end MessageBus
