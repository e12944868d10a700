import MessageBus.Proofs.Outstanding

/-!
# The step in which a call goes on

A call that goes on from its place gives it up, and in the same step it is granted, fails, or takes
a place anew; the stays of everybody else remain. Whatever begins to hold in a run begins in one
step, and so what can only begin in such a step of a call can be traced back to it.
-/

namespace MessageBus

open Relation

/-- A request that is blocked is not granted. -/
theorem Request.Blocked.not_granted {ω : Type} {q : Request} {r r' : Registry ω} {a : Address}
    (blocked : q.Blocked r a) : ¬q.Granted r r' := by
  intro granted
  cases blocked with
  | send found full =>
    cases granted with
    | send found' space =>
      cases found.symm.trans found'
      cases full.symm.trans space
  | sendMany found full =>
    cases granted with
    | sendMany found' space =>
      cases found.symm.trans found'
      cases full.symm.trans space
  | recv found empty =>
    cases granted with
    | recv found' some =>
      cases found.symm.trans found'
      exact absurd some (empty ▸ Nat.lt_irrefl 0)
  | recvMany found empty =>
    cases granted with
    | recvMany found' some _ =>
      cases found.symm.trans found'
      exact absurd some (empty ▸ Nat.lt_irrefl 0)
  | broadcast blocker =>
    cases granted with
    | broadcast all => cases blocker.symm.trans all

/-- A request is blocked at one channel only. -/
theorem Request.Blocked.unique {ω : Type} {q : Request} {r : Registry ω} {a b : Address}
    (blocked : q.Blocked r a) (blocked' : q.Blocked r b) : a = b := by
  cases blocked with
  | broadcast blocker =>
    cases blocked' with
    | broadcast blocker' => exact Option.some.inj (blocker.symm.trans blocker')
  | _ =>
    cases blocked'
    rfl

namespace Executor

variable {u : Usage} {x y : Executor} {b : Nat} {q q' : Request} {p p' : Place} {a a' : Address}

/-- The call that goes on from its place in the next step. -/
def resumed? (x : Executor) : Option (Nat × Request × Place) :=
  match x.stack with
  | .proceed w :: _ => (x.tasks[w.task]?).bind fun task =>
    match task.progress with
    | .calling b q (some p) _ => some (b, q, p)
    | _ => none
  | _ => none

theorem resumed?_eq_some_iff : x.resumed? = some (b, q, p) ↔ x.Resumes b q p := by
  constructor
  · intro resumed
    rw [resumed?] at resumed
    split at resumed
    · rename_i w rest stack
      obtain ⟨task, found, resumed⟩ := Option.bind_eq_some_iff.1 resumed
      split at resumed
      · rename_i progress
        cases resumed
        exact ⟨w, rest, task, _, stack, found, progress⟩
      · cases resumed
    · cases resumed
  · rintro ⟨w, rest, task, recorded, stack, found, progress⟩
    simp [resumed?, stack, found, progress]

instance : Decidable (x.Resumes b q p) := decidable_of_iff _ resumed?_eq_some_iff

/-- What a call does that goes on. -/
theorem Sound.resumed (sound : x.Sound u) (resumes : x.Resumes b q p) : ∃ w turn beside,
    q.Looked (x.registry b) w (some p) turn (x.step.registry b) ∧
      (x.staysOn b).Perm (⟨some q, p⟩ :: beside) ∧
      (x.step.staysOn b).Perm (turn.stays q (some p) ++ beside) := by
  obtain ⟨w, rest, task, recorded, stack, there, progress⟩ := resumes
  obtain ⟨task', rest', rfl, turn⟩ := sound.inTurn stack rfl
  cases there.symm.trans turn.found
  have holds := Task.callStay_of_calling progress
  have inside := Task.inside_of_callStay turn.task_sound holds
  obtain ⟨o, ran, looked⟩ := Request.look_looked (sound.balanced b) q (some p) w
  obtain ⟨bus, found, free, registry⟩ := exists_bus inside (turn.calm b)
  have next : x.step = turn.after.access b (fun r => q.advance r p w) (takeTurn w b recorded) := by
    rw [turn.step]
    refine (turn.withTask_after _).trans ?_
    rw [proceed, progress]
  have ran' : q.look bus.registry (some p) w = .ok o := by rw [registry, ran]
  obtain ⟨buses, tasks, -⟩ := access_of_free (x := turn.after) (f := fun r => q.advance r p w)
    (takeTurn w b recorded) found free ran' (does_takeTurn w b recorded o.answer)
  rw [← next] at buses tasks
  rw [turn.tasks_modify] at tasks
  refine ⟨w, o.answer, staysIn b task.streamStay ++ x.staysBeside w.task b, ?_, ?_, ?_⟩
  · rw [registry_set_self inside buses]
    exact looked
  · have before := x.staysOn_perm turn.found b
    rwa [Task.staysOn, holds, Option.map_some, staysIn_self, List.append_assoc] at before
  · have after := staysOn_set_perm turn.found tasks b
    rwa [Task.staysOn_leaves holds recorded looked.isOf, List.append_assoc] at after

/-- A call that was called and is blocked takes a place at the channel that is in its way. -/
theorem Sound.reparked (sound : x.Sound u) (resumes : x.Resumes b q p)
    (called : (x.registry b).hasCalled p = true) (blocked : q.Blocked (x.registry b) a) :
    ∃ w d beside, (x.registry b).find? a = some d ∧
      x.step.registry b = (x.registry b).issue.put a.handle
        (d.join ⟨(x.registry b).nextTicket⟩ w q.side) ∧
      (x.staysOn b).Perm (⟨some q, p⟩ :: beside) ∧
      (x.step.staysOn b).Perm (⟨some q, ⟨a, q.side, ⟨(x.registry b).nextTicket⟩⟩⟩ :: beside) := by
  obtain ⟨w, turn, beside, looked, before, after⟩ := sound.resumed resumes
  generalize registry : x.step.registry b = r' at looked
  cases looked with
  | waiting queued =>
    cases queued.symm.trans (Registry.isQueued_eq_false_of_hasCalled called)
  | gone gone =>
    obtain ⟨c, found, -⟩ := Registry.hasCalled_iff.1 called
    cases gone.symm.trans found
  | pursued out pursued =>
    cases pursued with
    | granted granted => exact absurd granted blocked.not_granted
    | groundless ground =>
      obtain ⟨c, found, fits⟩ := blocked.find?
      cases (ground.find?_eq_none (fits ⟨0⟩)).symm.trans found
    | @parked a' d blocked' found =>
      cases blocked.unique blocked'
      exact ⟨w, d, beside, found, rfl, before, after⟩

/-- A sender that was called and is blocked uses up its wakeup. Its channel changes only if it waits
there again, and whoever stands in a line keeps its place. -/
theorem Sound.reparked_sender (sound : x.Sound u) (resumes : x.Resumes b q p)
    (called : (x.registry b).hasCalled p = true) (at' : p.isAt a .senders = true)
    (blocked : q.Blocked (x.registry b) a') {c : Channel Waker}
    (found : (x.registry b).find? a = some c) : ∃ c', (x.step.registry b).find? a = some c' ∧
      (a' ≠ a ∧ c' = c ∨ a' = a ∧ ∃ t k, c' = c.join t k .senders) ∧
      x.outstanding b a .senders = x.step.outstanding b a .senders + 1 ∧
      ∀ s ∈ x.staysOn b, (x.registry b).isQueued s.place = true → s ∈ x.step.staysOn b := by
  obtain ⟨w, d, beside, there, registry, before, after⟩ := sound.reparked resumes called blocked
  have member : ⟨some q, p⟩ ∈ x.staysOn b := before.mem_iff.2 List.mem_cons_self
  have fits := (sound.balanced b).fitting _ member q rfl
  have sends : q.side = .senders := fits.1.symm.trans (Place.isAt_iff.1 at').2
  rw [sends] at registry after
  have total := sound.senders_add_outstanding found
  have old : (x.stand b a c).senders = seats beside a .senders + 1 := by
    rw [stand, Registry.stand, seats_perm before, seats_cons, if_pos at']
  have find := Registry.find?_put (r := (x.registry b).issue) there
    (d.id_join ⟨(x.registry b).nextTicket⟩ w .senders) a
  rw [← registry] at find
  have kept (s : Stay) (holds : s ∈ x.staysOn b) (queued : (x.registry b).isQueued s.place = true) :
      s ∈ x.step.staysOn b := by
    rcases List.mem_cons.1 (before.mem_iff.1 holds) with rfl | other
    · cases (Registry.isQueued_eq_false_of_hasCalled called).symm.trans queued
    · exact after.mem_iff.2 (List.mem_cons_of_mem _ other)
  by_cases same : a' = a
  · subst same
    cases found.symm.trans there
    rw [if_pos rfl] at find
    have total' := sound.step.1.senders_add_outstanding find
    have new : (x.step.stand b a' (c.join ⟨(x.registry b).nextTicket⟩ w .senders)).senders =
        seats beside a' .senders + 1 := by
      rw [stand, Registry.stand, seats_perm after, seats_cons, if_pos (by simp [Place.isAt])]
    have longer := (c.sizes_join_senders ⟨(x.registry b).nextTicket⟩ w).2.2.1
    exact ⟨_, find, .inr ⟨rfl, _, _, rfl⟩, by omega, kept⟩
  · rw [if_neg (Ne.symm same)] at find
    have find : (x.step.registry b).find? a = some c := find.trans found
    have total' := sound.step.1.senders_add_outstanding find
    have new : (x.step.stand b a c).senders = seats beside a .senders := by
      rw [stand, Registry.stand, seats_perm after, Registry.seats_cons_elsewhere same]
    exact ⟨c, find, .inl ⟨same, rfl⟩, by omega, kept⟩

theorem Sound.of_run (sound : x.Sound u) (run : ReflTransGen (Next u) x y) : y.Sound u := by
  induction run with
  | refl => exact sound
  | tail _ next ih => exact (next.sound ih).1

/-- What holds at the end of a run and not at its beginning began in one step, and has held ever
since. -/
theorem Sound.exists_origin {Holds Begins : Executor → Prop} (sound : x.Sound u)
    (run : ReflTransGen (Next u) x y) (not : ¬Holds x) (holds : Holds y)
    (begins : ∀ v w, v.Sound u → v.Next u w → ¬Holds v → Holds w → w = v.step ∧ Begins v) :
    ∃ z, ReflTransGen (Next u) x z ∧ Begins z ∧
      ReflTransGen (fun v w => v.Next u w ∧ Holds w) z.step y := by
  induction run with
  | refl => exact absurd holds not
  | @tail v w run next ih =>
    by_cases before : Holds v
    · obtain ⟨z, first, begun, since⟩ := ih before
      exact ⟨z, first, begun, since.tail ⟨next, holds⟩⟩
    · obtain ⟨rfl, begun⟩ := begins v w (sound.of_run run) next before holds
      exact ⟨v, run, begun, .refl⟩

/-- What has held ever since it began holds now. -/
theorem holds_of_since {Holds : Executor → Prop} (since :
    ReflTransGen (fun v w => v.Next u w ∧ Holds w) x y) (began : Holds x) : Holds y := by
  induction since with
  | refl => exact began
  | tail _ next _ => exact next.2

end Executor

end MessageBus
