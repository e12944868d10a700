import MessageBus.Proofs.Accesses
import MessageBus.Proofs.Catalogue.Simulation
import MessageBus.Proofs.Deferred
import MessageBus.Proofs.Faults
import MessageBus.Proofs.Effort.Bounds

/-!
# Operations, one after the other

A registry that is asked for one operation after the other replies as its catalogue does, and so
does an executor between two requests, where the bus is one of many and tasks wait on it: as long as
wakeups are deferred, whoever is woken by one operation does not get to the bus before the next.
-/

namespace MessageBus

/-! ### On a registry -/

namespace Registry

variable {ω : Type}

/-- Carries out operations, one after the other: the replies in order, and the registry at the
end. -/
def applyAll (r : Registry ω) : List Operation → Except Fault (List Reply × Registry ω)
  | [] => .ok ([], r)
  | op :: ops => do
    let o ← op.apply r
    let (replies, last) ← o.state.applyAll ops
    .ok (o.answer :: replies, last)

/-- A sequence of operations commits no fault, and its replies and the catalogue that it leaves are
told by the catalogue alone. -/
theorem applyAll_catalogue (r : Registry ω) {ops : List Operation}
    (plain : ∀ op ∈ ops, op.countsWaiting = false) : ∃ replies last,
      r.applyAll ops = .ok (replies, last) ∧
        (replies, last.catalogue) = r.catalogue.applyAll ops := by
  induction ops generalizing r with
  | nil => exact ⟨[], r, rfl, rfl⟩
  | cons op ops ih =>
    obtain ⟨plain, later⟩ := List.forall_mem_cons.1 plain
    obtain ⟨o, ran, same⟩ := op.apply_catalogue plain r
    obtain ⟨replies, last, all, same'⟩ := ih o.state later
    refine ⟨o.answer :: replies, last, ?_, ?_⟩
    · rw [applyAll, ran]
      simp only [bind, Except.bind, all]
    · rw [Catalogue.applyAll, ← same, ← same']

end Registry

/-! ### On a bus of an executor -/

namespace Executor

variable {u : Usage} {x : Executor} {b : Nat} {op : Operation}
  {o : Outcome (Registry Waker) Waker Reply}

/-- While wakeups are deferred, or if none are owed, an operation is over without any task going
on: its bus is changed, those that it woke are ready, its result is remembered, and its notes are
told. -/
theorem carryOut_operation_eq (reachable : x.Reachable u) (idle : x.stack = [])
    (deferred : o.woken ≠ [] → x.inline = false) (inside : b < x.buses.length)
    (ran : op.apply (x.registry b) = .ok o) : ∃ log, wokenIn log = o.woken.reverse ∧
      x.carryOut (.act b (.operate op)) = { x with
        buses := x.buses.set b ⟨o.state, false⟩
        ready := x.readiedAll o.woken
        lastError := x.lastError.afterReply o.answer
        telemetry := x.telemetry.noteAll (o.notes ++ o.afterwards)
        log
        answer := some o.answer } := by
  obtain ⟨bus, there, free, registry⟩ := exists_bus inside (reachable.sound.calm_of_idle idle b)
  rw [← registry] at ran
  obtain ⟨log, quiet, told⟩ := tell_eq
    { x with log := [], answer := none, buses := x.buses.set b ⟨o.state, true⟩ } o.notes
  generalize asks : ({ x with
    buses := x.buses.set b ⟨o.state, true⟩
    lastError := x.lastError.afterReply o.answer
    telemetry := x.telemetry.noteAll o.notes
    log
    stack := [.release b, .wake o.woken, .tell o.afterwards, .complete .outside o.answer]
    answer := none } : Executor) = asked
  have same : ({ x with log := [], answer := none } : Executor).ask (.act b (.operate op)) =
      asked := by
    rw [ask, act]
    refine (access_of_ran (x := { x with log := [], answer := none }) there free ran _).trans ?_
    rw [told, ← asks]
    simp only [record, push, idle]
    rfl
  have stack : asked.stack = [.release b, .wake o.woken, .tell o.afterwards,
      .complete .outside o.answer] := asks ▸ rfl
  have accessed := settle_access_eq (fun owed => asks ▸ deferred owed) stack
  generalize left : ({ asked with
    buses := asked.buses.modify b ({ · with inUse := false })
    stack := [.complete .outside o.answer]
    ready := asked.readiedAll o.woken
    log := (o.woken.map .woken).reverse ++ asked.log } : Executor) = last at accessed
  obtain ⟨log', calls, told'⟩ := last.tell_eq o.afterwards
  have stack' : (last.tell o.afterwards).stack = [.complete .outside o.answer] := by
    rw [told', ← left]
  have replied : (last.tell o.afterwards).step =
      ({ last.tell o.afterwards with stack := [] } : Executor).respond o.answer :=
    step_of_stack_cons stack'
  have settled : settle (o.woken.length + 3 + 1) asked = (last.tell o.afterwards).step := by
    rw [settle_add, accessed, settle_of_stack_cons stack', settle]
  have out : x.carryOut (.act b (.operate op)) = (last.tell o.afterwards).step := by
    rw [← settled, ← same]
    refine reachable.carryOut_eq idle inside ?_
    rw [same, settled, replied]
    rfl
  refine ⟨log', ?_, ?_⟩
  · rw [calls, ← left, ← asks, ← List.map_reverse, wokenIn_map_woken]
    exact (congrArg _ quiet).trans (List.append_nil _)
  · have buses : (x.buses.set b ⟨o.state, true⟩).modify b ({ · with inUse := false }) =
        x.buses.set b ⟨o.state, false⟩ := List.ext_getElem? fun b' => by grind
    rw [out, replied, told', ← left, ← asks, Telemetry.noteAll_append, idle]
    simp only [respond, buses]
    rfl

theorem carryOut_operation (reachable : x.Reachable u) (idle : x.stack = [])
    (deferred : o.woken ≠ [] → x.inline = false) (inside : b < x.buses.length)
    (ran : op.apply (x.registry b) = .ok o) :
    ∃ y, x.carryOut (.act b (.operate op)) = y ∧ y.stack = [] ∧ y.inline = x.inline ∧
      y.buses = x.buses.set b ⟨o.state, false⟩ ∧ y.answer = some o.answer ∧
      wokenIn y.log = o.woken.reverse := by
  obtain ⟨log, calls, carried⟩ := carryOut_operation_eq reachable idle deferred inside ran
  exact ⟨_, carried, idle, rfl, rfl, rfl, calls⟩

/-- The steps of a script that asks a bus for operations. -/
def operations (b : Nat) (ops : List Operation) : List Step := ops.map (.act b <| .operate ·)

/-- A script of operations replies as the catalogue of the bus does, whoever waits there, and leaves
the catalogue that the operations leave. -/
theorem runScript_operations (reachable : x.Reachable u) (idle : x.stack = [])
    (deferred : x.inline = false) (inside : b < x.buses.length) {ops : List Operation}
    (plain : ∀ op ∈ ops, op.countsWaiting = false) :
    (x.runScript (operations b ops)).2.map (·.reply) =
        ((x.registry b).catalogue.applyAll ops).1.map some ∧
      ((x.runScript (operations b ops)).1.registry b).catalogue =
        ((x.registry b).catalogue.applyAll ops).2 := by
  induction ops generalizing x with
  | nil => exact ⟨rfl, rfl⟩
  | cons op ops ih =>
    obtain ⟨plain, later⟩ := List.forall_mem_cons.1 plain
    obtain ⟨o, ran, same⟩ := op.apply_catalogue plain (x.registry b)
    obtain ⟨y, carried, idle', inline, buses, answer, -⟩ :=
      carryOut_operation reachable idle (fun _ => deferred) inside ran
    have reachable' : y.Reachable u :=
      carried ▸ (reachable.next (.ask (s := .act b (.operate op)) idle inside)).settle _
    have inside' : b < y.buses.length := by rwa [buses, List.length_set]
    have registry : y.registry b = o.state := registry_set_self inside buses
    obtain ⟨replies, left⟩ := ih reachable' idle' (inline.trans deferred) inside' later
    rw [registry] at replies left
    simp only [operations, List.map_cons, runScript, carried, Catalogue.applyAll, ← same]
    exact ⟨congrArg₂ List.cons answer replies, left⟩

end Executor

/-! ### Who waits does not matter -/

namespace Registry

variable {ω ω' : Type}

/-- Registries whose slots hold the same have the same catalogue. -/
theorem catalogue_eq_of_slots {r : Registry ω} {r' : Registry ω'}
    (slots : r.slots.map (·.map (·.store)) = r'.slots.map (·.map (·.store)))
    (next : r.nextId = r'.nextId) : r.catalogue = r'.catalogue := by
  refine Catalogue.ext_store? (fun h => ?_) next
  have slot {ω : Type} (r : Registry ω) : r.catalogue.store? h =
      ((r.slots.map (·.map (·.store)))[h]?).join := by
    rw [store?_catalogue, channel?, List.getElem?_map]
    rcases r.slots[h]? with _ | _ | c <;> rfl
  rw [slot, slot, slots]

end Registry

/-- A bus refines its catalogue. On every registry, a sequence of operations commits no fault, and
replies and leaves what it replies and leaves on the catalogue; so registries with the same
catalogue, whatever waits on them, reply the same. On a bus that a run has come by, with wakeups
deferred, a script of operations replies the same as well. -/
theorem Executor.bus_refines_catalogue {ops : List Operation}
    (plain : ∀ op ∈ ops, op.countsWaiting = false) :
    (∀ {ω : Type} (r : Registry ω), ∃ replies last, r.applyAll ops = .ok (replies, last) ∧
      (replies, last.catalogue) = r.catalogue.applyAll ops) ∧
    (∀ {ω ω' : Type} (r : Registry ω) (r' : Registry ω'), r.catalogue = r'.catalogue →
      ∃ replies last last', r.applyAll ops = .ok (replies, last) ∧
        r'.applyAll ops = .ok (replies, last') ∧ last.catalogue = last'.catalogue) ∧
    ∀ {u : Usage} {x : Executor} {b : Nat}, x.Reachable u → x.stack = [] → x.inline = false →
      b < x.buses.length →
      (x.runScript (operations b ops)).2.map (·.reply) =
          ((x.registry b).catalogue.applyAll ops).1.map some ∧
        ((x.runScript (operations b ops)).1.registry b).catalogue =
          ((x.registry b).catalogue.applyAll ops).2 := by
  refine ⟨fun r => r.applyAll_catalogue plain, fun r r' same => ?_,
    fun reachable idle deferred inside => runScript_operations reachable idle deferred inside plain⟩
  obtain ⟨replies, last, ran, told⟩ := r.applyAll_catalogue plain
  obtain ⟨replies', last', ran', told'⟩ := r'.applyAll_catalogue plain
  obtain ⟨rfl, left⟩ := Prod.mk.inj (told.trans (same ▸ told'.symm))
  exact ⟨replies, last, last', ran, ran', left⟩

/-- Two senders wait on a full channel, and a receiver on an empty one. -/
def threeWait : List Step :=
  [.act 0 (.operate (.openChannel 1)), .act 0 (.operate (.openChannel 2)),
    .act 0 (.operate (.trySend 0 7)), .spawn [⟨0, .call (.send 0 8)⟩] false,
    .spawn [⟨0, .call (.sendMany 0 [9, 9])⟩] false, .spawn [⟨0, .call (.recv 1)⟩] false, .run none]

/-- The same channels, and nobody waits. -/
def nobodyWaits : List Step :=
  [.act 0 (.operate (.openChannel 1)), .act 0 (.operate (.openChannel 2)),
    .act 0 (.operate (.trySend 0 7))]

/-- Every operation wakes somebody if somebody waits. -/
def wakingOperations : List Operation :=
  [.tryRecv 0, .tryRecv 0, .trySend 1 5, .trySendMany 1 [6, 6], .tryBroadcast 4, .size 1, .close 0,
    .openChannel 3, .trySend 0 1, .channelCount, .delete, .isOpen 0, .openChannel 0]

theorem Executor.waiters_change_no_reply :
    let crowded := ((new false).runScript threeWait).1
    let quiet := ((new false).runScript nobodyWaits).1
    (crowded.registry 0).waiting.length = 3 ∧ (quiet.registry 0).waiting.length = 0 ∧
      (∃ replies last last', (crowded.registry 0).applyAll wakingOperations = .ok (replies, last) ∧
        (quiet.registry 0).applyAll wakingOperations = .ok (replies, last') ∧
        last.catalogue = last'.catalogue) ∧
      (crowded.runScript (operations 0 wakingOperations)).2.map (·.reply) =
        (quiet.runScript (operations 0 wakingOperations)).2.map (·.reply) := by
  intro crowded quiet
  have plain : ∀ op ∈ wakingOperations, op.countsWaiting = false := by decide
  have obeys : (new false).Obeys .full threeWait := by decide +kernel
  have obeys' : (new false).Obeys .full nobodyWaits := by decide +kernel
  have reachable : crowded.Reachable .full := (reachable_new .full false).runScript obeys
  have reachable' : quiet.Reachable .full := (reachable_new .full false).runScript obeys'
  have same : (crowded.registry 0).catalogue = (quiet.registry 0).catalogue :=
    Registry.catalogue_eq_of_slots (by decide +kernel) (by decide +kernel)
  obtain ⟨-, pairs, scripts⟩ := bus_refines_catalogue plain
  have idle : crowded.stack.isEmpty = true := by decide +kernel
  have idle' : quiet.stack.isEmpty = true := by decide +kernel
  obtain ⟨replies, -⟩ := scripts (b := 0) reachable (List.isEmpty_iff.1 idle) (by decide +kernel)
    (by decide +kernel)
  obtain ⟨replies', -⟩ := scripts (b := 0) reachable' (List.isEmpty_iff.1 idle') (by decide +kernel)
    (by decide +kernel)
  refine ⟨by decide +kernel, by decide +kernel, pairs _ _ same, ?_⟩
  rw [replies, replies', same]

end MessageBus
