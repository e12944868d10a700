import MessageBus.Executor.Step
import MessageBus.Proofs.Moves
import Mathlib.Data.List.Perm.Basic

/-!
# What the tasks hold

The stays on a bus are found in the tasks: a task holds one for the request that it is in, and one
for the receive of its stream. These are the places that it knows of (`map_place_stays`), with what
they were taken for.

A step changes one task at a time. The stays of all the others stay as they are, and only the order
in which they are counted may differ.
-/

namespace MessageBus

/-- The stay among these, if it is on this bus. -/
def staysIn (b : Nat) (held : Option (Nat × Stay)) : List Stay :=
  ((held.filter (·.1 = b)).map (·.2)).toList

@[simp] theorem staysIn_none (b : Nat) : staysIn b none = [] := rfl

@[simp] theorem staysIn_self (b : Nat) (s : Stay) : staysIn b (some (b, s)) = [s] := by
  simp [staysIn, Option.filter]

theorem staysIn_of_ne {b b' : Nat} (other : b' ≠ b) (s : Stay) :
    staysIn b (some (b', s)) = [] := by
  simp [staysIn, Option.filter, other]

theorem mem_staysIn_iff {b : Nat} {held : Option (Nat × Stay)} {s : Stay} :
    s ∈ staysIn b held ↔ held = some (b, s) := by
  cases held with
  | none => simp
  | some held =>
    obtain ⟨b', s'⟩ := held
    by_cases same : b' = b
    · subst same
      simp [eq_comm]
    · simp [staysIn_of_ne same, same]

/-- The stays of a request with this prior place, all on one bus. -/
theorem staysIn_map_stays (b : Nat) (q : Request) (prior : Option Place) :
    staysIn b (prior.map fun p => (b, ⟨some q, p⟩)) = q.stays prior := by
  cases prior with
  | none => rfl
  | some p => exact staysIn_self b _

theorem staysIn_map_of_ne {b b' : Nat} (other : b' ≠ b) (prior : Option Place) (f : Place → Stay) :
    staysIn b (prior.map fun p => (b', f p)) = [] := by
  cases prior with
  | none => rfl
  | some p => exact staysIn_of_ne other _

namespace Task

/-- The stay for the current instruction, with its bus. -/
def callStay (t : Task) : Option (Nat × Stay) :=
  match t.progress with
  | .calling bus q prior _ => prior.map fun p => (bus, ⟨some q, p⟩)
  | .waiting bus p _ _ => some (bus, ⟨none, p⟩)
  | _ => none

/-- The stay for the receive of the stream, with its bus. -/
def streamStay (t : Task) : Option (Nat × Stay) :=
  t.stream.bind fun s =>
    s.place.map fun p => (s.bus, ⟨s.id.map fun id => .recv ⟨s.handle, id⟩, p⟩)

/-- All stays of a task. -/
def stays (t : Task) : List (Nat × Stay) := t.callStay.toList ++ t.streamStay.toList

/-- The stays of a task on one bus. -/
def staysOn (t : Task) (b : Nat) : List Stay := staysIn b t.callStay ++ staysIn b t.streamStay

theorem map_place_callStay (t : Task) :
    t.callStay.map (fun held => (held.1, held.2.place)) = t.callPlace := by
  rw [callStay, callPlace]
  cases t.progress with
  | calling bus q prior recorded => cases prior <;> rfl
  | _ => rfl

theorem map_place_streamStay (t : Task) :
    t.streamStay.map (fun held => (held.1, held.2.place)) = t.streamPlace := by
  rw [streamStay, streamPlace]
  cases t.stream with
  | none => rfl
  | some s =>
    obtain ⟨bus, handle, id, place⟩ := s
    cases place <;> rfl

theorem callPlace_eq_none {t : Task} (settled : t.callStay = none) : t.callPlace = none := by
  rw [← map_place_callStay, settled]
  rfl

theorem callStay_eq_none {t : Task} (settled : t.callPlace = none) : t.callStay = none := by
  rw [← map_place_callStay] at settled
  exact Option.map_eq_none_iff.1 settled

/-- A task holds a stay for each of its places. -/
theorem map_place_stays (t : Task) :
    t.stays.map (fun held => (held.1, held.2.place)) = t.places := by
  rw [stays, places, List.map_append, ← map_place_callStay, ← map_place_streamStay]
  cases t.callStay <;> cases t.streamStay <;> rfl

theorem mem_staysOn_iff {t : Task} {b : Nat} {s : Stay} : s ∈ t.staysOn b ↔ (b, s) ∈ t.stays := by
  rw [staysOn, stays, List.mem_append, List.mem_append, mem_staysIn_iff, mem_staysIn_iff,
    Option.mem_toList, Option.mem_toList]

theorem callStay_of_calling {t : Task} {bus : Nat} {q : Request} {prior : Option Place}
    {recorded : Bool} (calling : t.progress = .calling bus q prior recorded) :
    t.callStay = prior.map fun p => (bus, ⟨some q, p⟩) := by
  rw [callStay, calling]

theorem callStay_of_fresh {t : Task} (fresh : t.progress = .fresh) : t.callStay = none := by
  rw [callStay, fresh]

theorem staysOn_of_callStay {t : Task} (settled : t.callStay = none) (b : Nat) :
    t.staysOn b = staysIn b t.streamStay := by
  rw [staysOn, settled, staysIn_none, List.nil_append]

end Task

namespace Executor

variable {x : Executor} {t b : Nat} {task task' : Task}

/-- The registry of a bus; an empty one if there is no such bus. -/
def registry (x : Executor) (b : Nat) : Registry Waker :=
  ((x.buses[b]?).map (·.registry)).getD {}

/-- The stays that are held on a bus. -/
def staysOn (x : Executor) (b : Nat) : List Stay := x.tasks.flatMap (·.staysOn b)

/-- The stays on a bus that are held by all tasks but one. -/
def staysBeside (x : Executor) (t b : Nat) : List Stay := (x.tasks.eraseIdx t).flatMap (·.staysOn b)

theorem registry_of_bus {bus : SharedBus} (found : x.buses[b]? = some bus) :
    x.registry b = bus.registry := by
  rw [registry, found]
  rfl

theorem mem_staysOn_iff {s : Stay} : s ∈ x.staysOn b ↔ ∃ task ∈ x.tasks, (b, s) ∈ task.stays := by
  simp only [staysOn, List.mem_flatMap, Task.mem_staysOn_iff]

theorem staysOn_perm (found : x.tasks[t]? = some task) (b : Nat) :
    (x.staysOn b).Perm (task.staysOn b ++ x.staysBeside t b) := by
  obtain ⟨inside, rfl⟩ := List.getElem?_eq_some_iff.1 found
  have first := (List.getElem_cons_eraseIdx_perm inside).symm
  exact first.flatMap_right _

/-- When one task changes, the stays of the others remain. -/
theorem staysOn_set_perm {y : Executor} (found : x.tasks[t]? = some task)
    (changed : y.tasks = x.tasks.set t task') (b : Nat) :
    (y.staysOn b).Perm (task'.staysOn b ++ x.staysBeside t b) := by
  obtain ⟨inside, -⟩ := List.getElem?_eq_some_iff.1 found
  have found' : y.tasks[t]? = some task' := by
    rw [changed, List.getElem?_set_self inside]
  have beside : y.staysBeside t b = x.staysBeside t b := by
    rw [staysBeside, changed, List.eraseIdx_set_eq]
    rfl
  exact beside ▸ staysOn_perm found' b

end Executor

end MessageBus
