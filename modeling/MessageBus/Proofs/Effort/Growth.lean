import MessageBus.Proofs.Effort.Errands
import MessageBus.Proofs.Holders
import MessageBus.Proofs.Targets
import Mathlib.Algebra.Order.BigOperators.Group.Finset

/-!
# How much more there can be to do

Where one of the numbers of `Executor.effort` gets less, those that count less may grow. They do not
grow by much. An errand puts no more messages into each channel than its request or its operation
carries (`Errand.cargo`), it wakes nobody but those who waited, and only an operation opens a
channel.
-/

namespace MessageBus

variable {ω : Type}

/-! ### What an errand carries -/

/-- How many messages an operation puts into one channel, at most. -/
def Operation.cargo : Operation → Nat
  | .trySendMany _ ms => ms.length
  | _ => 1

/-- How many messages a request puts into one channel, at most. -/
def Request.cargo : Request → Nat
  | .sendMany _ ms => ms.length
  | _ => 1

/-- How many messages an errand puts into one channel, at most. -/
def Errand.cargo : Errand ω → Nat
  | .operate op => op.cargo
  | .look q _ _ => q.cargo
  | _ => 0

theorem length_sentTo_le {ids : List ChannelId} (distinct : ids.Nodup) (c : ChannelId)
    (ms : List Message) : (sentTo c (ids.map (.sent · ms))).length ≤ ms.length := by
  by_cases member : c ∈ ids
  · rw [sentTo_map_sent distinct member]
  · rw [sentTo_eq_nil fun t there => ?_]
    · exact Nat.zero_le _
    · obtain ⟨id, inside, rfl⟩ := List.mem_map.1 there
      exact fun same => member (same ▸ inside)

theorem length_sentTo_toList_le (slot : Option (Channel ω)) (c : ChannelId) (ms : List Message) :
    (sentTo c (slot.toList.map (.sent ·.id ms))).length ≤ ms.length := by
  have distinct : (slot.toList.map (·.id)).Nodup := by cases slot <;> simp
  have few := length_sentTo_le distinct c ms
  rwa [List.map_map] at few

theorem sentTo_map_received (cs : List (Channel ω)) (c : ChannelId) (ms : List Message) :
    sentTo c (cs.map (.received ·.id ms)) = [] := by
  rw [sentTo, List.flatMap_map]
  exact List.flatMap_eq_nil_iff.2 fun _ _ => rfl

namespace Registry

variable {r r' : Registry ω} {ts : List Transfer}

theorem Identified.length_sentTo_le (ident : r.Identified) (c : ChannelId) (m : Message) :
    (sentTo c (r.channels.map (.sent ·.id [m]))).length ≤ 1 := by
  have few := MessageBus.length_sentTo_le ident.nodup c [m]
  rwa [List.map_map] at few

end Registry

theorem Operation.length_sentTo_le {r : Registry ω} (ident : r.Identified) (op : Operation)
    (reply : Reply) (c : ChannelId) : (sentTo c (op.transfers r reply)).length ≤ op.cargo := by
  rw [Operation.transfers.eq_def]
  split
  · exact length_sentTo_toList_le _ c _
  · exact (length_sentTo_toList_le _ c _).trans (List.length_take_le' _ _)
  · rw [sentTo_map_received]
    exact Nat.zero_le _
  · rw [sentTo_map_received]
    exact Nat.zero_le _
  · exact ident.length_sentTo_le c _
  · exact Nat.zero_le _

theorem Request.length_sentTo_le {r : Registry ω} (ident : r.Identified) (q : Request)
    (v : Value) (c : ChannelId) : (sentTo c (q.transfers r v)).length ≤ q.cargo := by
  have single (id : ChannelId) (ms : List Message) : (sentTo c [.sent id ms]).length ≤ ms.length :=
    MessageBus.length_sentTo_le (List.nodup_singleton id) c ms
  rw [Request.transfers.eq_def]
  split
  · exact single _ _
  · exact (single _ _).trans (List.length_take_le' _ _)
  · exact Nat.zero_le _
  · exact Nat.zero_le _
  · exact ident.length_sentTo_le c _
  · exact Nat.zero_le _

namespace Errand

variable {r : Registry ω} {e : Errand ω} {o : Outcome (Registry ω) ω Upshot}

theorem length_sentTo_le (ident : r.Identified) (ran : e.effect r = .ok o) (c : ChannelId) :
    (sentTo c o.answer.transfers).length ≤ e.cargo := by
  cases e with
  | operate op =>
    obtain ⟨p, -, rfl⟩ := Outcome.of_map_eq_ok ran
    exact op.length_sentTo_le ident p.answer c
  | look q prior k =>
    obtain ⟨p, -, rfl⟩ := Outcome.of_map_eq_ok ran
    show (sentTo c (p.answer.transfers r q)).length ≤ q.cargo
    rcases p.answer with ⟨_ | v⟩ | _ | _ | _
    case finished.ok => exact q.length_sentTo_le ident v c
    all_goals exact Nat.zero_le _
  | park a side k =>
    obtain ⟨p, -, rfl⟩ := Outcome.of_map_eq_ok ran
    exact Nat.zero_le _
  | revisit p k =>
    cases ran
    exact Nat.zero_le _
  | abandon p =>
    cases ran
    exact Nat.zero_le _
  | glance =>
    cases ran
    exact Nat.zero_le _

/-- An errand wakes nobody who did not wait. -/
theorem length_woken_le (ran : e.effect r = .ok o) : o.woken.length ≤ r.waiting.length := by
  have popped {left joined : List (Place × ω)} (shifts : r.Shifts o.state left joined o.woken) :
      o.woken.length ≤ r.waiting.length := by
    obtain ⟨popped, stay, before, -, wakers⟩ := shifts
    rw [← wakers.length_eq, List.length_map, before.length_eq, List.length_append]
    exact Nat.le_add_right _ _
  cases rearranges ran with
  | pops _ shifts _ => exact popped shifts
  | joins _ _ _ shifts => exact popped shifts
  | renews _ _ shifts => exact popped shifts
  | removes _ _ shifts => exact popped shifts

end Errand

/-! ### Slots and messages of a registry -/

namespace Registry

variable {α : Type} {r r' : Registry ω} {ts : List Transfer} {h : Handle} {a : Address}
  {side : Side} {k : ω}

@[simp] theorem length_slots_put (r : Registry ω) (h : Handle) (c : Channel ω) :
    (r.put h c).slots.length = r.slots.length := List.length_set

@[simp] theorem length_slots_commitAll (r : Registry ω) (m : Message) (cascade : Bool) :
    (r.commitAll m cascade).state.slots.length = r.slots.length := by
  simp [commitAll]

theorem length_slots_park {o : Outcome (Registry ω) ω (Option Place)}
    (ran : r.park a side k = .ok o) : o.state.slots.length = r.slots.length := by
  cases found : r.find? a with
  | none =>
    cases ran.symm.trans (park_of_gone found side k)
    rfl
  | some c =>
    rw [(joins_of_park found ran).state]
    exact length_slots_put _ _ _

theorem length_slots_revisit (r : Registry ω) (p : Place) (k : ω) :
    (r.revisit p k).state.slots.length = r.slots.length := by
  rcases r.standing_cases p with queued | called | gone
  · obtain ⟨c, l, -, -, -, state⟩ := revisit_of_queued queued k
    rw [state, length_slots_put]
  · rw [(revisit_of_called called k).2]
  · rw [(revisit_of_gone gone k).2]

theorem length_slots_abandon (r : Registry ω) (p : Place) :
    (r.abandon p).state.slots.length = r.slots.length := by
  rcases r.standing_cases p with queued | called | gone
  · obtain ⟨c, l, -, -, -, state⟩ := abandon_of_queued queued
    rw [state, length_slots_put]
  · obtain ⟨c, -, state⟩ := abandon_of_called called
    rw [state, length_slots_put]
  · rw [abandon_of_gone gone]

theorem length_slots_answer {value : α → Value}
    {act : Channel ω → Except Fault (Outcome (Channel ω) ω (Except BusError α))}
    {o : Outcome (Registry ω) ω Reply}
    (ran : Operation.apply.answer value (r.onChannel h act) = .ok o) :
    o.state.slots.length = r.slots.length := by
  obtain ⟨p, acted, rfl⟩ := Outcome.of_map_eq_ok ran
  rcases of_onChannel_eq_ok acted with rfl | ⟨c, p, -, -, rfl⟩
  · rfl
  · exact length_slots_put _ _ _

end Registry

theorem Operation.length_slots_le {r : Registry ω} {op : Operation}
    {o : Outcome (Registry ω) ω Reply} (ran : op.apply r = .ok o) :
    o.state.slots.length ≤ r.slots.length + 1 := by
  have same (length : o.state.slots.length = r.slots.length) :
      o.state.slots.length ≤ r.slots.length + 1 := Nat.le_succ_of_le (Nat.le_of_eq length)
  cases op with
  | openChannel bound =>
    cases ran
    simp only [Registry.openChannel, Outcome.state_map]
    split
    · rw [List.length_set]
      exact Nat.le_succ _
    · exact Nat.le_of_eq List.length_append
  | close h =>
    cases ran
    refine same ?_
    simp only [Registry.close, Outcome.state_map]
    split
    · rfl
    · exact List.length_set
  | delete =>
    cases ran
    exact Nat.zero_le _
  | trySend h m => exact same (Registry.length_slots_answer ran)
  | trySendMany h ms => exact same (Registry.length_slots_answer ran)
  | tryRecv h => exact same (Registry.length_slots_answer ran)
  | tryRecvMany h limit => exact same (Registry.length_slots_answer ran)
  | tryBroadcast m =>
    cases ran
    refine same ?_
    simp only [Registry.tryBroadcast, Outcome.state_map]
    split
    · rfl
    · split
      · exact r.length_slots_commitAll m false
      · rfl
  | _ =>
    cases ran
    exact Nat.le_succ _

theorem Request.Granted.length_slots {q : Request} {r r' : Registry ω} (granted : q.Granted r r') :
    r'.slots.length = r.slots.length := by
  cases granted <;> simp

theorem Request.length_slots_attempt {q : Request} {r : Registry ω}
    {o : Outcome (Registry ω) ω Attempt} (ran : q.attempt r = .ok o) :
    o.state.slots.length = r.slots.length := by
  obtain ⟨o', ran', fares⟩ := q.attempt_fares r
  cases ran.symm.trans ran'
  generalize o.answer = attempt, o.state = r' at fares
  cases fares with
  | granted granted => exact granted.length_slots
  | groundless _ => rfl
  | blocked _ => rfl

/-- Only an operation makes a slot. -/
theorem Errand.length_slots_le {r : Registry ω} {e : Errand ω}
    {o : Outcome (Registry ω) ω Upshot} (ran : e.effect r = .ok o) :
    o.state.slots.length ≤ r.slots.length ∨
      (∃ op, e = .operate op) ∧ o.state.slots.length ≤ r.slots.length + 1 := by
  cases e with
  | operate op =>
    obtain ⟨p, did, rfl⟩ := Outcome.of_map_eq_ok ran
    exact .inr ⟨⟨op, rfl⟩, Operation.length_slots_le did⟩
  | look q prior k =>
    obtain ⟨p, did, rfl⟩ := Outcome.of_map_eq_ok ran
    have ends := Request.ends_of_look did
    refine .inl (Nat.le_of_eq ?_)
    simp only [Outcome.state_map]
    generalize p.answer = turn, p.state = r', p.woken = woken at ends
    cases ends with
    | tried _ tries _ => exact Request.length_slots_attempt tries
    | parked _ _ _ parks => exact Registry.length_slots_park parks
    | waiting _ => exact r.length_slots_revisit _ k
    | gone _ => rfl
  | park a side k =>
    obtain ⟨p, did, rfl⟩ := Outcome.of_map_eq_ok ran
    exact .inl (Nat.le_of_eq (Registry.length_slots_park did))
  | revisit p k =>
    cases ran
    exact .inl (Nat.le_of_eq (r.length_slots_revisit p k))
  | abandon p =>
    cases ran
    exact .inl (Nat.le_of_eq (r.length_slots_abandon p))
  | glance =>
    cases ran
    exact .inl (Nat.le_refl _)

namespace Registry

variable {r r' : Registry ω} {ts : List Transfer} {n k : Nat}

theorem load_eq_sum (le : r.slots.length ≤ n) :
    r.load = ∑ h ∈ Finset.range n, ((r.channel? h).map (·.size)).getD 0 := by
  have length : (r.slots.map fun slot => (slot.map (·.size)).getD 0).length ≤ n := by
    rwa [List.length_map]
  rw [load, sum_eq_sum_range _ length]
  refine Finset.sum_congr rfl fun h _ => ?_
  rw [List.getElem?_map, channel?]
  rcases r.slots[h]? with _ | _ | c <;> rfl

/-- No channel holds more than before, but for the messages that were put into it. -/
theorem Flows.load_le (flows : r.Flows ts r') (le : r.slots.length ≤ n)
    (le' : r'.slots.length ≤ n) (few : ∀ id, (sentTo id ts).length ≤ k) :
    r'.load ≤ r.load + n * k := by
  have size (h : Handle) : ((r'.channel? h).map (·.size)).getD 0 ≤
      ((r.channel? h).map (·.size)).getD 0 + k := by
    cases there : r'.channel? h with
    | none => exact Nat.zero_le _
    | some c' =>
      have old {c : Channel ω} (before : r.find? ⟨h, c'.id⟩ = some c)
          (size : c'.size ≤ c.size + k) :
          ((some c').map (·.size)).getD 0 ≤ ((r.channel? h).map (·.size)).getD 0 + k := by
        rw [(find?_eq_some_iff.1 before).1]
        exact size
      have found := find?_of_channel? there
      cases flows with
      | kept _ each _ =>
        obtain ⟨c, before, passes⟩ := each _ c' found
        have items := congrArg List.length passes.items
        have sent := few (Address.mk h c'.id).id
        rw [List.length_append, List.length_append] at items
        refine old before ?_
        rw [Channel.size, Channel.size, Fifo.size, Fifo.size]
        omega
      | opened _ _ _ each =>
        rcases each _ c' found with before | ⟨-, rfl⟩
        · exact old before (Nat.le_add_right _ _)
        · exact Nat.zero_le _
  calc r'.load
      = ∑ h ∈ Finset.range n, ((r'.channel? h).map (·.size)).getD 0 := load_eq_sum le'
    _ ≤ ∑ h ∈ Finset.range n, (((r.channel? h).map (·.size)).getD 0 + k) :=
      Finset.sum_le_sum fun h _ => size h
    _ = r.load + n * k := by
      rw [Finset.sum_add_distrib, ← load_eq_sum le, Finset.sum_const_nat fun _ _ => rfl,
        Finset.card_range]

end Registry

/-! ### Whoever waits -/

namespace Executor

variable {u : Usage} {x : Executor} {b : Nat} {e : Errand Waker}
  {o : Outcome (Registry Waker) Waker Upshot}

theorem length_held_le (x : Executor) (b : Nat) : (x.held b).length ≤ 2 * x.tasks.length := by
  rw [held, onBus, List.length_map]
  refine (List.length_filter_le _ _).trans ?_
  rw [List.length_flatMap]
  exact sum_map_le_mul fun task _ => task.length_places_le

/-- An errand calls no more wakers than there are places. -/
theorem Sound.length_woken_le (sound : x.Sound u) (ran : e.effect (x.registry b) = .ok o) :
    o.woken.length ≤ 2 * x.tasks.length := by
  calc o.woken.length
      ≤ (x.registry b).waiting.length := Errand.length_woken_le ran
    _ ≤ (x.held b).length := by
      rw [← List.length_map (·.1), (sound.waiting_perm b).length_eq]
      exact List.length_filter_le _ _
    _ ≤ 2 * x.tasks.length := x.length_held_le b

end Executor

end MessageBus
