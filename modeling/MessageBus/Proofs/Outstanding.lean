import MessageBus.Proofs.Runs
import MessageBus.Proofs.Wakeups

/-!
# Outstanding wakeups

A place is outstanding if its ticket was taken out of its line, its channel is still open, and the
task that holds it has neither gone on from it nor given it up. Together with the callers that stand
in a line, the outstanding places of the line are all that are held there. So what is known of the
stands of a bus carries over to every executor that a run comes by.
-/

namespace MessageBus

theorem Task.staysOn_eq_filter (t : Task) (b : Nat) :
    t.staysOn b = (t.stays.filter (·.1 = b)).map (·.2) := by
  have part (held : Option (Nat × Stay)) :
      staysIn b held = (held.toList.filter (·.1 = b)).map (·.2) := by
    cases held with
    | none => rfl
    | some held =>
      by_cases same : held.1 = b
      · simp [staysIn, Option.filter, same]
      · simp [staysIn, Option.filter, same]
  rw [staysOn, stays, List.filter_append, List.map_append, part, part]

/-- Only a broadcast can be held up at another channel than the one where it was called. -/
theorem Request.Blocked.isBroadcast {ω : Type} {q : Request} {r : Registry ω} {p : Place}
    {a b : Address} (blocked : q.Blocked r b) (fits : q.Fits p) (at' : p.address = a)
    (other : b ≠ a) : ∃ m, q = .broadcast m := by
  cases blocked with
  | broadcast _ => exact ⟨_, rfl⟩
  | _ found _ => exact absurd (fits.2 b rfl).symm (at' ▸ other)

namespace Executor

variable {u : Usage} {x y : Executor} {b : Nat} {a : Address} {side : Side} {c c' : Channel Waker}

/-- How many places of a line are outstanding. -/
def outstanding (x : Executor) (b : Nat) (a : Address) (side : Side) : Nat :=
  (x.tasks.flatMap (·.places)).countP fun held =>
    held.1 = b && (held.2.isAt a side && (x.registry b).hasCalled held.2)

/-- A channel of a bus with the places that are held on it. -/
def stand (x : Executor) (b : Nat) (a : Address) (c : Channel Waker) : Stand Waker :=
  Registry.stand c (x.staysOn b) a

theorem outstanding_eq_called (x : Executor) (b : Nat) (a : Address) (side : Side) :
    x.outstanding b a side = (x.registry b).called (x.staysOn b) a side := by
  rw [outstanding, Registry.called, staysOn]
  induction x.tasks with
  | nil => rfl
  | cons t tasks ih =>
    rw [List.flatMap_cons, List.flatMap_cons, List.countP_append, List.countP_append, ih,
      ← Task.map_place_stays, Task.staysOn_eq_filter, List.countP_map, List.countP_map,
      List.countP_filter]
    congr 2
    funext held
    exact Bool.and_comm _ _

/-- Nothing is outstanding if none of the places that tasks hold was called. -/
theorem outstanding_eq_zero (none : ∀ held ∈ x.tasks.flatMap (·.places), held.1 = b →
    held.2.side = side → (x.registry b).hasCalled held.2 = false) (a : Address) :
    x.outstanding b a side = 0 := by
  rw [outstanding, List.countP_eq_zero]
  intro held member due
  simp only [Bool.and_eq_true, decide_eq_true_eq, Place.isAt_iff] at due
  obtain ⟨bus, ⟨-, at'⟩, called⟩ := due
  cases (none held member bus at').symm.trans called

/-- Who is held at a line stands in it or is outstanding. -/
theorem Sound.size_add_outstanding (sound : x.Sound u) (found : (x.registry b).find? a = some c)
    (side : Side) : (c.line side).size + x.outstanding b a side = seats (x.staysOn b) a side := by
  rw [outstanding_eq_called]
  exact (sound.balanced b).size_add_called found side

theorem Sound.senders_add_outstanding (sound : x.Sound u)
    (found : (x.registry b).find? a = some c) :
    c.senders.size + x.outstanding b a .senders = (x.stand b a c).senders :=
  sound.size_add_outstanding found .senders

theorem Sound.receivers_add_outstanding (sound : x.Sound u)
    (found : (x.registry b).find? a = some c) :
    c.receivers.size + x.outstanding b a .receivers = (x.stand b a c).receivers :=
  sound.size_add_outstanding found .receivers

theorem isFresh_covered (fresh : c.IsFresh) (senders receivers : Nat) :
    Stand.Covered ⟨c, senders, receivers⟩ := by
  obtain ⟨id, bound, rfl⟩ := fresh
  exact .inl rfl

theorem isFresh_spare (fresh : c.IsFresh) (senders receivers : Nat) :
    Stand.Spare ⟨c, senders, receivers⟩ := by
  obtain ⟨id, bound, rfl⟩ := fresh
  exact fun _ => .inl rfl

/-- Receivers are covered if nobody waits, or enough of them are outstanding. -/
theorem Sound.covered_iff (sound : x.Sound u) (found : (x.registry b).find? a = some c) :
    (x.stand b a c).Covered ↔
      c.receivers.size = 0 ∨ c.queue.size ≤ x.outstanding b a .receivers := by
  have total := sound.receivers_add_outstanding found
  have same : (x.stand b a c).channel = c := rfl
  rw [Stand.Covered, same]
  omega

/-- A slot is spare if nobody waits for it, or somebody is outstanding. -/
theorem Sound.spare_iff (sound : x.Sound u) (found : (x.registry b).find? a = some c) :
    (x.stand b a c).Spare ↔
      (c.hasSpace = true → c.senders.size = 0 ∨ 0 < x.outstanding b a .senders) := by
  have total := sound.senders_add_outstanding found
  have same : (x.stand b a c).channel = c := rfl
  rw [Stand.Spare, same]
  refine imp_congr_right fun _ => ?_
  omega

/-- A broadcast is heard of if somebody is outstanding whenever it could go ahead. -/
theorem Sound.heard_iff (sound : x.Sound u) (found : (x.registry b).find? a = some c) :
    (x.stand b a c).Heard ↔ (c.acceptsBroadcast = true → 0 < x.outstanding b a .senders) := by
  have total := sound.senders_add_outstanding found
  have same : (x.stand b a c).channel = c := rfl
  rw [Stand.Heard, same]
  refine imp_congr_right fun _ => ?_
  omega

/-- A sender that waits again uses up a wakeup. -/
theorem Sound.outstanding_of_lapse (sound : x.Sound u) (sound' : y.Sound u) {moved : Prop}
    (found : (x.registry b).find? a = some c) (after : (y.registry b).find? a = some c')
    (lapse : (x.stand b a c).Lapse moved (y.stand b a c')) :
    x.outstanding b a .senders = y.outstanding b a .senders + 1 := by
  have total := sound.senders_add_outstanding found
  have total' := sound'.senders_add_outstanding after
  by_cases other : moved
  · obtain ⟨same, fewer⟩ := lapse.of_moved other
    have same : c' = c := same
    subst same
    omega
  · obtain ⟨-, ⟨t, k, joined⟩, held⟩ := lapse.of_stayed fun moved => other moved
    have joined : c' = c.join t k .senders := joined
    have longer := (c.sizes_join_senders t k).2.2.1
    rw [← joined] at longer
    omega

theorem Sound.stand_sound (sound : x.Sound u) (found : (x.registry b).find? a = some c) :
    (x.stand b a c).Sound :=
  (sound.balanced b).stand_sound found

theorem find?_new (inline : Bool) (b : Nat) (a : Address) :
    ((new inline).registry b).find? a = none := by
  cases b <;> rfl

/-- Only what may be waited for goes on. -/
theorem Sound.permits_of_resumes (sound : x.Sound u) {q : Request} {p : Place}
    (resumes : x.Resumes b q p) : u.permits (some q) := by
  obtain ⟨w, rest, task, recorded, -, found, progress⟩ := resumes
  have kept := (sound.tasks task (List.mem_of_getElem? found)).progress
  rw [progress] at kept
  exact kept.2

/-- What a step of a run makes of a channel. If a sender that was called there waits again, the step
is a small one in which it goes on. -/
theorem Next.stands (next : x.Next u y) (sound : x.Sound u) (bare : ¬u.bareWaits)
    (after : (y.registry b).find? a = some c') : c'.IsFresh ∨
      ∃ c, (x.registry b).find? a = some c ∧ ((x.stand b a c).Step (y.stand b a c') ∨
        ∃ q p a', y = x.step ∧ x.Resumes b q p ∧ q.Fits p ∧ (x.registry b).hasCalled p = true ∧
          p.isAt a .senders = true ∧ q.Blocked (x.registry b) a' ∧
          (x.stand b a c).Lapse (a' ≠ a) (y.stand b a c')) := by
  obtain ⟨held, held', before, moves, later⟩ := (next.sound sound).2 b
  have bal := (sound.balanced b).perm before
  have permitted (s : Stay) (member : s ∈ held) :=
    sound.permitted b s (before.mem_iff.2 member)
  have old (c : Channel Waker) : x.stand b a c = Registry.stand c held a := by
    rw [stand, Registry.stand, seats_perm before, seats_perm before]
    rfl
  have new : y.stand b a c' = Registry.stand c' held' a := by
    rw [stand, Registry.stand, ← seats_perm later, ← seats_perm later]
    rfl
  rcases moves.stands bal permitted bare after with
    fresh | ⟨c, found, step | ⟨q, p, a', holds, ⟨same, resumes⟩, called, at', blocked, lapse⟩⟩
  · exact .inl fresh
  · exact .inr ⟨c, found, .inl (by rw [old, new]; exact step)⟩
  · have fits := bal.fitting _ holds q rfl
    exact .inr ⟨c, found, .inr ⟨q, p, a', same, resumes, fits, called, at', blocked,
      by rw [old, new]; exact lapse⟩⟩

end Executor

end MessageBus
