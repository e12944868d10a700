import MessageBus.Proofs.LeavingOut.Errands

/-!
# Executors without one of their callers

A caller that waits is left out of an executor together with its waiter: its task is suspended at
the same instruction and has not begun with it (`Absentee.likeness`). Whatever others do on their
buses comes to the same, as long as the waiter is not woken (`Absentee.serves`).
-/

namespace MessageBus

/-- A caller that is left out: its task, and the call that it waits in. -/
structure Absentee where
  task : Nat
  bus : Nat
  request : Request
  place : Place
  recorded : Bool

namespace Absentee

variable (m : Absentee)

/-- What its task keeps of the call. -/
def progress : Progress := .calling m.bus m.request (some m.place) m.recorded

/-- What a bus is without the caller. -/
def leftOut (b : Nat) (r : Registry Waker) : Registry Waker :=
  if b = m.bus then r.leavingOut m.place.ticket else r

/-- What a place of somebody else is without the caller. -/
def placed (b : Nat) (p : Place) : Place := if b = m.bus then p.leavingOut m.place.ticket else p

/-- Executors that differ in a caller that is left out. -/
def likeness : Likeness where
  registry b r r' := r' = m.leftOut b r
  place b p p' := p' = m.placed b p ∧ (b = m.bus → p.ticket ≠ m.place.ticket)
  absent t progress := t = m.task ∧ progress = m.progress
  resolve := by
    rintro b r _ rfl h
    rw [leftOut]
    split
    · exact r.resolve_leavingOut _ h
    · rfl
  summary := by
    rintro b r _ rfl inUse
    rw [leftOut]
    split
    · exact r.summary_leavingOut _ inUse
    · rfl
  address := by
    rintro b p _ ⟨rfl, -⟩
    rw [placed]
    split <;> exact ⟨rfl, rfl⟩
  calling := by
    rintro t _ ⟨-, rfl⟩
    exact ⟨_, _, _, _, rfl⟩

/-- Whether the caller waits in its call. -/
def IsIn (x : Executor) : Prop :=
  ∃ task, x.tasks[m.task]? = some task ∧ task.progress = m.progress

/-- Whether the caller is still in its line as long as it waits. -/
def IsUncalled (x : Executor) : Prop :=
  m.IsIn x → (x.registry m.bus).isQueued m.place = true

instance (x : Executor) : Decidable (m.IsIn x) :=
  decidable_of_iff ((x.tasks[m.task]?).map (·.progress) = some m.progress) Option.map_eq_some_iff

instance (x : Executor) : Decidable (m.IsUncalled x) := inferInstanceAs (Decidable (_ → _))

variable {m} {b : Nat} {waits : Prop} {r r' : Registry Waker} {p p' : Place} {e : Errand Waker}

theorem leftOut_self (r : Registry Waker) : m.leftOut m.bus r = r.leavingOut m.place.ticket :=
  if_pos rfl

theorem leftOut_of_ne (other : b ≠ m.bus) (r : Registry Waker) : m.leftOut b r = r := if_neg other

theorem place_self_iff : m.likeness.place m.bus p p' ↔
    p' = p.leavingOut m.place.ticket ∧ p.ticket ≠ m.place.ticket := by
  show p' = m.placed m.bus p ∧ _ ↔ _
  rw [placed, if_pos rfl]
  exact and_congr_right fun _ => ⟨fun other => other rfl, fun other _ => other⟩

theorem place_iff_of_ne (other : b ≠ m.bus) : m.likeness.place b p p' ↔ p' = p := by
  show p' = m.placed b p ∧ _ ↔ _
  rw [placed, if_neg other]
  exact and_iff_left fun same => absurd same other

/-! ### Errands of others -/

/-- Likeness on the bus of the caller is that of a bus without the waiter. -/
theorem alike_self {α : Type} {answers answers' : α → α → Prop}
    {o o' : Outcome (Registry Waker) Waker α}
    (alike : o.Alike (fun r r' => r' = r.leavingOut m.place.ticket) answers o')
    (imp : answers o.answer o'.answer → answers' o.answer o'.answer) :
    o.Alike (m.likeness.registry m.bus) answers' o' :=
  ⟨imp alike.answer, alike.state.trans (leftOut_self _).symm, alike.woken⟩

/-- On another bus everything is the same. -/
theorem serves_of_ne (other : b ≠ m.bus) : m.likeness.Serves waits b r r e := by
  have same {α : Type} {answers : α → α → Prop} {o : Outcome (Registry Waker) Waker α}
      (answer : answers o.answer o.answer) : o.Alike (m.likeness.registry b) answers o :=
    ⟨answer, (leftOut_of_ne other _).symm, rfl⟩
  have place (p : Place) : m.likeness.place b p p := (place_iff_of_ne other).2 rfl
  cases e with
  | operate op => exact fun o ran => ⟨o, ran, same (.same _)⟩
  | look q prior k =>
    intro prior' places o ran
    obtain rfl : prior' = prior := by
      cases places with
      | none => rfl
      | some places => exact congrArg some ((place_iff_of_ne other).1 places)
    refine ⟨o, ran, same ?_⟩
    cases o.answer with
    | parked q p => exact .parked q (place p)
    | _ => constructor
  | park a side k =>
    refine fun o ran => ⟨o, ran, same ?_⟩
    cases o.answer with
    | none => exact .none
    | some p => exact .some (place p)
  | revisit p k =>
    intro p' places
    obtain rfl := (place_iff_of_ne other).1 places
    exact same rfl
  | abandon p =>
    intro p' places
    obtain rfl := (place_iff_of_ne other).1 places
    exact same rfl
  | glance => trivial

/-- An errand comes to the same without the caller, if that is hidden and is not woken. While the
caller waits, there is one more who waits. -/
theorem serves (like : m.likeness.registry b r r')
    (hides : b = m.bus → r.Hides m.place.ticket)
    (gone : b = m.bus → ¬waits → ∀ h c, r.channel? h = some c → ∀ side,
      m.place.ticket ∉ c.tickets side)
    (keeps : b = m.bus → ∀ o, e.effect r = .ok o → r.Keeps o.state m.place.ticket) :
    m.likeness.Serves waits b r r' e := by
  obtain rfl : r' = m.leftOut b r := like
  by_cases own : b = m.bus
  · subst own
    have hides := hides rfl
    have keeps := keeps rfl
    rw [leftOut_self]
    cases e with
    | operate op =>
      intro o ran
      obtain ⟨o', ran', alike⟩ := Operation.apply_leavingOut hides (gone rfl) ran
        (keeps _ (by rw [Errand.effect, ran]; rfl))
      exact ⟨o', ran', alike_self alike id⟩
    | look q prior k =>
      intro prior' places o ran
      have others : ∀ p ∈ prior, p.ticket ≠ m.place.ticket := by
        rintro p rfl
        cases places with
        | some places => exact (place_self_iff.1 places).2
      obtain rfl : prior' = prior.map (·.leavingOut m.place.ticket) := by
        cases places with
        | none => rfl
        | some places => exact congrArg some (place_self_iff.1 places).1
      obtain ⟨o', ran', alike⟩ :=
        Request.look_leavingOut others hides ran (keeps _ (by rw [Errand.effect, ran]; rfl))
      exact ⟨o', ran', alike_self alike fun turns => turns.imp fun _ _ => place_self_iff.2⟩
    | park a side k =>
      intro o ran
      obtain ⟨o', ran', alike⟩ :=
        Registry.park_leavingOut hides ran (keeps _ (by rw [Errand.effect, ran]; rfl))
      refine ⟨o', ran', alike_self alike fun places => ?_⟩
      generalize o.answer = before at places ⊢
      generalize o'.answer = after at places ⊢
      cases places with
      | none => exact .none
      | some places => exact .some (place_self_iff.2 places)
    | revisit p k =>
      intro p' places
      obtain ⟨rfl, other⟩ := place_self_iff.1 places
      exact alike_self (Registry.revisit_leavingOut other) id
    | abandon p =>
      intro p' places
      obtain ⟨rfl, other⟩ := place_self_iff.1 places
      exact alike_self (Registry.abandon_leavingOut other hides (keeps _ rfl)) id
    | glance => trivial
  · rw [leftOut_of_ne own]
    exact serves_of_ne own

end Absentee

end MessageBus
