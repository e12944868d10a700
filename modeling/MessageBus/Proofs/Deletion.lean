import MessageBus.Proofs.Catalogue.Runs
import MessageBus.Proofs.FreeSlots.Steps

/-!
# A deletion closes all channels

Closing each open channel of a bus, by ascending handle, calls the same wakers as the deletion of
the bus, in the same order, and leaves the same bus but for its free slots
(`Registry.closeEach_entries`). Where wakeups are deferred, nothing can get between. From then on no
run tells the two buses apart, other than by how many slots there are, and by the events that
telemetry keeps (`Executor.deletion_closes_all`).
-/

namespace MessageBus

/-! ### On a registry -/

namespace Registry

variable {ω : Type}

/-- Closes the channels under these handles, one after the other: the registry that is left, and the
wakers to call. -/
def closeEach (r : Registry ω) : List Handle → Registry ω × List ω
  | [] => (r, [])
  | h :: later =>
    let closed := r.close h
    let left := closed.state.closeEach later
    (left.1, closed.woken ++ left.2)

/-- What is left of a registry after channels were closed. -/
theorem closeEach_left (r : Registry ω) (handles : List Handle) :
    (∀ h, (r.closeEach handles).1.channel? h = if h ∈ handles then none else r.channel? h) ∧
      (r.closeEach handles).1.slots.length = r.slots.length ∧
      (r.closeEach handles).1.nextId = r.nextId ∧
      (r.closeEach handles).1.nextTicket = r.nextTicket := by
  induction handles generalizing r with
  | nil => exact ⟨fun _ => rfl, rfl, rfl, rfl⟩
  | cons first later ih =>
    have closed : (r.close first).state.slots.length = r.slots.length ∧
        (r.close first).state.nextId = r.nextId ∧
        (r.close first).state.nextTicket = r.nextTicket := by
      rw [close]
      split
      · exact ⟨rfl, rfl, rfl⟩
      · exact ⟨List.length_set, rfl, rfl⟩
    obtain ⟨channels, length, nextId, nextTicket⟩ := ih (r.close first).state
    refine ⟨fun h => ?_, length.trans closed.1, nextId.trans closed.2.1,
      nextTicket.trans closed.2.2⟩
    refine (channels h).trans ?_
    rw [channel?_close]
    simp only [List.mem_cons]
    split <;> split <;> simp_all

theorem woken_close (r : Registry ω) (h : Handle) :
    (r.close h).woken = ((r.channel? h).map (·.close)).getD [] := by
  rw [close]
  cases r.channel? h <;> rfl

/-- The end of one channel changes nothing for those that wait on the others. -/
theorem woken_closeEach (r : Registry ω) {handles : List Handle} (nodup : handles.Nodup) :
    (r.closeEach handles).2 =
      handles.flatMap fun h => ((r.channel? h).map (·.close)).getD [] := by
  induction handles generalizing r with
  | nil => rfl
  | cons first later ih =>
    obtain ⟨fresh, nodup⟩ := List.nodup_cons.1 nodup
    rw [List.flatMap_cons, ← woken_close, ← List.flatMap_congr fun h there => ?_]
    · exact congrArg (_ ++ ·) (ih (r.close first).state nodup)
    · rw [channel?_close, if_neg fun same : h = first => fresh (same ▸ there)]

/-- To close all open channels is to delete them, but for the slots. -/
theorem closeEach_entries (r : Registry ω) :
    r.closeEach (r.entries.map (·.1)) =
      (r.delete.state.padded r.slots.length, r.delete.woken) := by
  obtain ⟨channels, length, nextId, nextTicket⟩ := r.closeEach_left (r.entries.map (·.1))
  have free : ∀ slot ∈ (r.closeEach (r.entries.map (·.1))).1.slots, slot = none := by
    intro slot there
    obtain ⟨h, found⟩ := List.getElem?_of_mem there
    have left := channels h
    rw [channel?, found, Option.join_some] at left
    rw [left]
    split
    · rfl
    · rename_i closed
      refine Option.eq_none_iff_forall_ne_some.2 fun c opened => closed ?_
      exact List.mem_map_of_mem (f := (·.1)) (mem_entries_iff.2 opened)
  have slots := List.eq_replicate_iff.2 ⟨length, free⟩
  refine Prod.ext ?_ ?_
  · generalize (r.closeEach (r.entries.map (·.1))).1 = left at slots nextId nextTicket ⊢
    obtain ⟨_, _, _⟩ := left
    cases slots
    cases nextId
    cases nextTicket
    rfl
  · rw [woken_closeEach r r.nodup_entries, delete, ← map_snd_entries, List.flatMap_map,
      List.flatMap_map]
    refine List.flatMap_congr fun entry there => ?_
    rw [mem_entries_iff.1 there]
    rfl

end Registry

/-! ### On a bus of an executor -/

namespace Executor

variable {u : Usage} {x y z : Executor} {b : Nat} {r r' : Registry Waker}
  {woken woken' : List Waker}

/-- Between two requests a bus has come to hold this registry, and these wakers were called. Nothing
else has changed that shows later, apart from events. -/
structure CameTo (x : Executor) (b : Nat) (r : Registry Waker) (woken : List Waker)
    (y : Executor) : Prop where
  stack : y.stack = x.stack
  inline : y.inline = x.inline
  buses : y.buses = x.buses.set b ⟨r, false⟩
  tasks : y.tasks = x.tasks
  ready : y.ready = x.readiedAll woken
  slot : y.lastError = x.lastError
  counters : y.telemetry.counters = x.telemetry.counters

theorem cameTo_self (calm : x.isInUse b = false) (inside : b < x.buses.length) :
    x.CameTo b (x.registry b) [] x := by
  obtain ⟨bus, there, free, registry⟩ := exists_bus inside calm
  obtain ⟨inside, rfl⟩ := List.getElem?_eq_some_iff.1 there
  refine ⟨rfl, rfl, ?_, rfl, rfl, rfl, rfl⟩
  rw [← registry, ← free]
  exact (List.set_getElem_self inside).symm

theorem CameTo.trans (came : x.CameTo b r woken y) (later : y.CameTo b r' woken' z) :
    x.CameTo b r' (woken ++ woken') z where
  stack := later.stack.trans came.stack
  inline := later.inline.trans came.inline
  buses := by rw [later.buses, came.buses, List.set_set]
  tasks := later.tasks.trans came.tasks
  ready := by
    rw [later.ready, readiedAll_append, readiedAll, came.ready]
    simp only [readied, came.tasks]
    rfl
  slot := later.slot.trans came.slot
  counters := later.counters.trans came.counters

/-- An operation that answers nothing and raises no counter. -/
theorem cameTo_operation (reachable : x.Reachable u) (idle : x.stack = [])
    (deferred : x.inline = false) (inside : b < x.buses.length) (op : Operation)
    {o : Outcome (Registry Waker) Waker Unit}
    (ran : op.apply (x.registry b) = .ok (o.map fun _ => .plain .nothing))
    (uncounted : ∀ t : Telemetry, (t.noteAll (o.notes ++ o.afterwards)).counters = t.counters) :
    x.CameTo b o.state o.woken (x.carryOut (.act b (.operate op))) ∧
      wokenIn (x.carryOut (.act b (.operate op))).stepRecord.events = o.woken := by
  obtain ⟨log, calls, carried⟩ :=
    carryOut_operation_eq reachable idle (fun _ => deferred) inside ran
  rw [carried]
  refine ⟨⟨rfl, rfl, rfl, rfl, rfl, rfl, uncounted x.telemetry⟩, ?_⟩
  show log.reverse.filterMap _ = _
  rw [List.filterMap_reverse]
  exact (congrArg List.reverse calls).trans (List.reverse_reverse _)

/-- What it comes to that channels are closed one after the other. -/
theorem cameTo_closes (reachable : x.Reachable u) (idle : x.stack = [])
    (deferred : x.inline = false) (inside : b < x.buses.length) (handles : List Handle) :
    let closed := (x.registry b).closeEach handles
    let run := x.runScript (operations b (handles.map .close))
    x.CameTo b closed.1 closed.2 run.1 ∧ run.2.flatMap (wokenIn ·.events) = closed.2 := by
  induction handles generalizing x with
  | nil => exact ⟨cameTo_self (reachable.sound.calm_of_idle idle b) inside, rfl⟩
  | cons h later ih =>
    have uncounted (t : Telemetry) : (t.noteAll (((x.registry b).close h).notes ++
        ((x.registry b).close h).afterwards)).counters = t.counters := by
      rw [Registry.close]
      split <;> rfl
    obtain ⟨came, calls⟩ := cameTo_operation reachable idle deferred inside (.close h) rfl
      uncounted
    have reachable' : (x.carryOut (.act b (.operate (.close h)))).Reachable u :=
      (reachable.next (.ask (s := .act b (.operate (.close h))) idle inside)).settle _
    simp only [List.map_cons, operations, runScript, Registry.closeEach, List.flatMap_cons, calls]
    generalize x.carryOut (.act b (.operate (.close h))) = y at came reachable' ⊢
    obtain ⟨came', calls'⟩ := ih reachable' (came.stack.trans idle) (came.inline.trans deferred)
      (by rwa [came.buses, List.length_set])
    rw [registry_set_self inside came.buses] at came' calls'
    exact ⟨came.trans came', congrArg (_ ++ ·) calls'⟩

/-- A bus that has come to hold the same, but for free slots, is the same to all who go on. -/
theorem CameTo.resembles {n : Nat} (came : x.CameTo b r woken y)
    (came' : x.CameTo b (r.padded n) woken z) (idle : x.stack = []) :
    y.cleared.Resembles z.cleared where
  inline := came'.inline.trans came.inline.symm
  buses b' := by
    show Option.Rel _ y.buses[b']? z.buses[b']?
    rw [came.buses, came'.buses, List.getElem?_set, List.getElem?_set]
    split
    · split
      · exact .some (@SharedBus.Resembles.intro ⟨r, false⟩ n)
      · exact .none
    · cases x.buses[b']? with
      | none => exact .none
      | some bus => exact .some (.refl bus)
  tasks t := by
    show Option.Rel _ y.tasks[t]? z.tasks[t]?
    rw [came.tasks, came'.tasks]
    cases x.tasks[t]? with
    | none => exact .none
    | some task => exact .some (.refl task)
  ready := came'.ready.trans came.ready.symm
  slot := came'.slot.trans came.slot.symm
  counters := came'.counters.trans came.counters.symm
  log := .nil
  stack := by
    show List.Forall₂ _ y.stack z.stack
    rw [came.stack, came'.stack, idle]
    exact .nil
  answer := .none

/-- The deletion of a bus is the end of all its channels, one after the other. The same wakers are
called in the same order, and however the runs go on, they do not differ but in free slots: what is
answered and what happens is the same, and so are the channels, their identities and all tickets. -/
theorem deletion_closes_all (reachable : x.Reachable u) (idle : x.stack = [])
    (deferred : x.inline = false) (inside : b < x.buses.length) :
    let deleted := x.carryOut (.act b (.operate .delete))
    let closed := x.runScript (operations b ((x.registry b).entries.map (.close ·.1)))
    closed.2.flatMap (wokenIn ·.events) = wokenIn deleted.stepRecord.events ∧
      ∀ moves,
        let y := deleted.cleared.followAll moves
        let z := closed.1.cleared.followAll moves
        y.Resembles z ∧ wokenIn z.log = wokenIn y.log ∧
          ∀ b, ∃ n, z.registry b = (y.registry b).padded n := by
  intro deleted closed
  obtain ⟨came, calls⟩ := cameTo_operation reachable idle deferred inside .delete
    (o := (x.registry b).delete) rfl fun _ => rfl
  have each := cameTo_closes reachable idle deferred inside ((x.registry b).entries.map (·.1))
  rw [Registry.closeEach_entries, List.map_map] at each
  obtain ⟨came', calls'⟩ := each
  refine ⟨calls'.trans calls.symm, fun moves => ?_⟩
  have same := (came.resembles came' idle).followAll moves
  exact ⟨same, same.calls, same.registry⟩

/-- A sender waits on the first channel, a broadcast behind it, and a receiver on the second. -/
def waitersOnTwoChannels : List Step :=
  [.act 0 (.operate (.openChannel 1)), .act 0 (.operate (.openChannel 2)),
    .act 0 (.operate (.trySend 0 7)), .spawn [⟨0, .call (.send 0 8)⟩] false,
    .spawn [⟨0, .call (.broadcast 9)⟩] false, .spawn [⟨0, .call (.recv 1)⟩] false, .run none]

/-- Three wakers are called, and the slots stay or are given up. A channel that is opened then has
the same handle and the same identity. -/
theorem deletion_calls_three :
    let x := ((new false).runScript waitersOnTwoChannels).1
    let deleted := x.carryOut (.act 0 (.operate .delete))
    let closed := x.runScript (operations 0 ((x.registry 0).entries.map (.close ·.1)))
    let opening := [some (.act 0 (.operate (.openChannel 1)))]
    (closed.2.flatMap (wokenIn ·.events) = wokenIn deleted.stepRecord.events ∧
      ∀ moves,
        let y := deleted.cleared.followAll moves
        let z := closed.1.cleared.followAll moves
        y.Resembles z ∧ wokenIn z.log = wokenIn y.log ∧
          ∀ b, ∃ n, z.registry b = (y.registry b).padded n) ∧
      (wokenIn deleted.stepRecord.events).map (·.task) = [0, 1, 2] ∧
      ((deleted.cleared.followAll opening).registry 0).slots.map (·.map (·.id.number)) = [some 2] ∧
      ((closed.1.cleared.followAll opening).registry 0).slots.map (·.map (·.id.number)) =
        [some 2, none] := by
  intro x deleted closed opening
  have obeys : (new false).Obeys .full waitersOnTwoChannels := by decide +kernel
  have reachable : x.Reachable .full := (reachable_new .full false).runScript obeys
  have idle : x.stack = [] := List.isEmpty_iff.1 (by decide +kernel)
  exact ⟨deletion_closes_all reachable idle (by decide +kernel) (by decide +kernel),
    by decide +kernel, by decide +kernel, by decide +kernel⟩

end Executor

end MessageBus
