import MessageBus.Operation
import MessageBus.Proofs.Attempts

/-!
# Which messages an operation moves

An atomic operation puts messages into channels or takes messages out of one, and its answer says
which: a send that is granted has put in its message, a batch send that answers `n` has put in the
first `n` of its messages, a receive has taken out what it answers, and a broadcast that goes ahead
has put its message into every channel that is open then. Whatever is refused, parked or given up
has moved nothing.

A channel is first in, first out: what it holds and then what is put in is the same as what is taken
out and then what it still holds (`Channel.Passes`). A registry passes its messages if each of its
channels does (`Registry.Flows`). This needs the channels to be told apart by their identities
(`Registry.Identified`), and it keeps them so.
-/

namespace MessageBus

/-- Messages that an atomic operation moved. -/
inductive Transfer where
  /-- They were put into a channel. -/
  | sent (id : ChannelId) (ms : List Message)
  /-- They were taken out of a channel. -/
  | received (id : ChannelId) (ms : List Message)
deriving DecidableEq, Repr

namespace Transfer

/-- The channel that messages were moved into or out of. -/
def id : Transfer → ChannelId
  | sent id _ => id
  | received id _ => id

/-- The messages that were put into a channel. -/
def into (c : ChannelId) : Transfer → List Message
  | sent id ms => if id = c then ms else []
  | received _ _ => []

/-- The messages that were taken out of a channel. -/
def outOf (c : ChannelId) : Transfer → List Message
  | sent _ _ => []
  | received id ms => if id = c then ms else []

theorem into_of_ne {c : ChannelId} {t : Transfer} (other : t.id ≠ c) : t.into c = [] := by
  cases t with
  | sent id ms => exact if_neg other
  | received id ms => rfl

theorem outOf_of_ne {c : ChannelId} {t : Transfer} (other : t.id ≠ c) : t.outOf c = [] := by
  cases t with
  | sent id ms => rfl
  | received id ms => exact if_neg other

end Transfer

/-- Everything that was put into a channel, in order. -/
def sentTo (c : ChannelId) (ts : List Transfer) : List Message := ts.flatMap (·.into c)

/-- Everything that was taken out of a channel, in order. -/
def receivedFrom (c : ChannelId) (ts : List Transfer) : List Message := ts.flatMap (·.outOf c)

section

variable {c : ChannelId} {ts : List Transfer}

@[simp] theorem sentTo_nil (c : ChannelId) : sentTo c [] = [] := rfl

@[simp] theorem receivedFrom_nil (c : ChannelId) : receivedFrom c [] = [] := rfl

@[simp] theorem sentTo_append (c : ChannelId) (ts ts' : List Transfer) :
    sentTo c (ts ++ ts') = sentTo c ts ++ sentTo c ts' := List.flatMap_append

@[simp] theorem receivedFrom_append (c : ChannelId) (ts ts' : List Transfer) :
    receivedFrom c (ts ++ ts') = receivedFrom c ts ++ receivedFrom c ts' := List.flatMap_append

theorem sentTo_eq_nil (others : ∀ t ∈ ts, t.id ≠ c) : sentTo c ts = [] :=
  List.flatMap_eq_nil_iff.2 fun t member => t.into_of_ne (others t member)

theorem receivedFrom_eq_nil (others : ∀ t ∈ ts, t.id ≠ c) : receivedFrom c ts = [] :=
  List.flatMap_eq_nil_iff.2 fun t member => t.outOf_of_ne (others t member)

@[simp] theorem sentTo_sent (c : ChannelId) (ms : List Message) :
    sentTo c [.sent c ms] = ms := by
  simp [sentTo, Transfer.into]

/-- What is put into several channels, into each once, is put once into one of them. -/
theorem sentTo_map_sent {ids : List ChannelId} (distinct : ids.Nodup) (member : c ∈ ids)
    (ms : List Message) : sentTo c (ids.map (.sent · ms)) = ms := by
  induction ids with
  | nil => cases member
  | cons id ids ih =>
    obtain ⟨new, distinct⟩ := List.nodup_cons.1 distinct
    rw [List.map_cons, ← List.singleton_append, sentTo_append]
    rcases List.mem_cons.1 member with rfl | later
    · have none : sentTo c (ids.map (.sent · ms)) = [] := by
        refine sentTo_eq_nil fun t member => ?_
        obtain ⟨id, there, rfl⟩ := List.mem_map.1 member
        exact fun same => new (same ▸ there)
      rw [none, sentTo_sent, List.append_nil]
    · have other : (Transfer.sent id ms).id ≠ c := by
        intro same
        have same : id = c := same
        exact new (same ▸ later)
      rw [ih distinct later, sentTo_eq_nil (List.forall_mem_singleton.2 other), List.nil_append]

@[simp] theorem receivedFrom_sent (c id : ChannelId) (ms : List Message) :
    receivedFrom c [.sent id ms] = [] := rfl

@[simp] theorem sentTo_received (c id : ChannelId) (ms : List Message) :
    sentTo c [.received id ms] = [] := rfl

@[simp] theorem receivedFrom_received (c : ChannelId) (ms : List Message) :
    receivedFrom c [.received c ms] = ms := by
  simp [receivedFrom, Transfer.outOf]

end

/-! ### Through one channel -/

/-- What a result stands for, when `values` says so for a value that is granted. What is refused
stands for nothing. -/
def whenGranted {α β : Type} (values : α → List β) : Except BusError α → List β
  | .ok a => values a
  | .error _ => []

@[simp] theorem whenGranted_ok {α β : Type} (values : α → List β) (a : α) :
    whenGranted values (.ok a) = values a := rfl

@[simp] theorem whenGranted_error {α β : Type} (values : α → List β) (e : BusError) :
    whenGranted values (.error e) = [] := rfl

namespace Channel

variable {ω : Type} {c c' d : Channel ω} {sent received : List Message}

/-- Another state of the same channel, after messages were put in behind those that it held and
messages were taken out in front. -/
structure Passes (c : Channel ω) (sent received : List Message) (c' : Channel ω) : Prop where
  id : c'.id = c.id
  items : c.queue.items ++ sent = received ++ c'.queue.items

/-- Where only the lines change, no message is moved. -/
theorem passes_of_queue (id : c'.id = c.id) (queue : c'.queue = c.queue) : c.Passes [] [] c' :=
  ⟨id, by rw [queue, List.append_nil, List.nil_append]⟩

theorem Passes.refl (c : Channel ω) : c.Passes [] [] c := passes_of_queue rfl rfl

theorem passes_commit (c : Channel ω) (m : Message) (cascade : Bool) :
    c.Passes [m] [] (c.commit m cascade).1 := by
  cases cascade
  · exact ⟨by simp [commit], by simp [commit, Fifo.push]⟩
  · exact ⟨by simp [commit], by simp [commit, Fifo.push]⟩

theorem passes_trySend (c : Channel ω) (m : Message) :
    c.Passes (whenGranted (fun _ => [m]) (c.trySend m).answer) [] (c.trySend m).state := by
  cases space : c.hasSpace
  · rw [trySend_of_full space]
    exact .refl c
  · obtain ⟨answer, state⟩ := trySend_of_hasSpace (m := m) space
    rw [answer, state]
    exact c.passes_commit m false

theorem passes_sendStep (c : Channel ω) (m : Message) :
    c.Passes (if (c.sendStep m).answer then [m] else []) [] (c.sendStep m).state := by
  cases space : c.hasSpace
  · rw [sendStep_of_full space]
    exact .refl c
  · obtain ⟨answer, state⟩ := sendStep_of_hasSpace (m := m) space
    rw [answer, state]
    exact c.passes_commit m true

/-- Of a batch, the messages that were counted are put in, the first of them first. -/
theorem passes_trySendMany (c : Channel ω) (ms : List Message) :
    c.Passes (whenGranted (ms.take ·) (c.trySendMany ms).answer) []
      (c.trySendMany ms).state := by
  by_cases full : c.freeSlots = 0
  · rw [trySendMany, if_pos full]
    exact .refl c
  · rw [trySendMany, if_neg full]
    exact ⟨by simp, by simp [Fifo.pushMany]⟩

theorem passes_tryRecv (c : Channel ω) :
    c.Passes [] (whenGranted ([·]) c.tryRecv.answer) c.tryRecv.state := by
  cases items : c.queue.items with
  | nil =>
    rw [tryRecv_of_empty (congrArg List.length items)]
    exact .refl c
  | cons m rest =>
    have popped : c.queue.pop? = some (m, ⟨rest⟩) := by simp [Fifo.pop?, items]
    refine ⟨by simp [tryRecv, popped], ?_⟩
    simp [tryRecv, popped, items]

theorem passes_tryRecvMany {limit : Nat}
    {o : Outcome (Channel ω) ω (Except BusError (List Message))}
    (ran : c.tryRecvMany limit = .ok o) :
    c.Passes [] (whenGranted (fun ms => ms) o.answer) o.state := by
  rw [tryRecvMany] at ran
  split at ran
  · cases ran
    exact .refl c
  · rw [Fifo.popMany_of_le (Nat.min_le_right _ _)] at ran
    cases ran
    exact ⟨by simp, by simp⟩

/-- What a batch receive does for the receivers behind it moves no message. -/
theorem passes_recvManyStep {limit : Nat}
    {o : Outcome (Channel ω) ω (Except BusError (List Message))}
    (ran : c.recvManyStep limit = .ok o) :
    c.Passes [] (whenGranted (fun ms => ms) o.answer) o.state := by
  cases taken : c.tryRecvMany limit with
  | error f =>
    rw [recvManyStep, taken] at ran
    cases ran
  | ok p =>
    have passes := passes_tryRecvMany taken
    cases answer : p.answer with
    | error e =>
      have same : c.recvManyStep limit = .ok p := by
        simp [recvManyStep, taken, Except.map, answer]
      cases ran.symm.trans same
      exact passes
    | ok ms =>
      have rest : p.state.passOnLeftovers.1.id = p.state.id ∧
          p.state.passOnLeftovers.1.queue = p.state.queue := by
        rw [passOnLeftovers]
        split <;> simp
      simp only [recvManyStep, taken, Except.map, answer, Except.ok.injEq] at ran
      subst ran
      refine ⟨rest.1.trans passes.id, ?_⟩
      rw [rest.2, passes.items, answer]

end Channel

/-! ### Through a registry -/

namespace Registry

variable {ω : Type} {r r' : Registry ω} {ts : List Transfer} {a : Address} {h : Handle}
  {c c' : Channel ω}

/-- The open channels have different identities, and all of them were given out. -/
structure Identified (r : Registry ω) : Prop where
  issued : ∀ a c, r.find? a = some c → a.id.number < r.nextId
  distinct : ∀ a a' c c', r.find? a = some c → r.find? a' = some c' → a.id = a'.id → a = a'

/-- What one atomic operation makes of the channels of a bus, with the messages that it moves. -/
inductive Flows (r : Registry ω) : List Transfer → Registry ω → Prop where
  /-- No channel is opened, and those that stay open pass their messages. -/
  | kept {ts : List Transfer} {r' : Registry ω} (next : r'.nextId = r.nextId)
      (each : ∀ a c', r'.find? a = some c' → ∃ c, r.find? a = some c ∧
        c.Passes (sentTo a.id ts) (receivedFrom a.id ts) c')
      (about : ∀ t ∈ ts, ∃ a c, r.find? a = some c ∧ a.id = t.id) : Flows r ts r'
  /-- One channel is opened, and the others stay as they are. -/
  | opened (h : Handle) (bound : Nat) {r' : Registry ω} (next : r'.nextId = r.nextId + 1)
      (each : ∀ a c', r'.find? a = some c' → r.find? a = some c' ∨
        a = ⟨h, ⟨r.nextId⟩⟩ ∧ c' = .fresh ⟨r.nextId⟩ bound) : Flows r [] r'

theorem identified_empty : (empty : Registry ω).Identified :=
  ⟨fun _ _ found => by simp [find?] at found, fun _ _ _ _ found => by simp [find?] at found⟩

/-- A channel that is there after an atomic operation was there before, or its identity is new. -/
theorem Flows.find? (flows : r.Flows ts r') (found : r'.find? a = some c') :
    (∃ c, r.find? a = some c) ∨ a.id = ⟨r.nextId⟩ ∧ r'.nextId = r.nextId + 1 := by
  cases flows with
  | kept _ each _ =>
    obtain ⟨c, before, -⟩ := each a c' found
    exact .inl ⟨c, before⟩
  | opened _ _ next each =>
    rcases each a c' found with before | ⟨rfl, -⟩
    · exact .inl ⟨c', before⟩
    · exact .inr ⟨rfl, next⟩

theorem Flows.nextId_le (flows : r.Flows ts r') : r.nextId ≤ r'.nextId := by
  cases flows with
  | kept next _ _ => exact Nat.le_of_eq next.symm
  | opened _ _ next _ => exact next ▸ Nat.le_succ _

theorem Flows.identified (flows : r.Flows ts r') (ident : r.Identified) : r'.Identified where
  issued a c' found := by
    rcases flows.find? found with ⟨c, before⟩ | ⟨new, next⟩
    · exact Nat.lt_of_lt_of_le (ident.issued a c before) flows.nextId_le
    · rw [new, next]
      exact Nat.lt_succ_self _
  distinct a a' c c' found found' same := by
    cases flows with
    | kept _ each _ =>
      obtain ⟨d, before, -⟩ := each a c found
      obtain ⟨d', before', -⟩ := each a' c' found'
      exact ident.distinct a a' d d' before before' same
    | opened _ _ _ each =>
      rcases each a c found with before | ⟨rfl, -⟩ <;>
        rcases each a' c' found' with before' | ⟨rfl, -⟩
      · exact ident.distinct a a' c c' before before' same
      · have issued := ident.issued a c before
        rw [same] at issued
        exact absurd issued (Nat.lt_irrefl _)
      · have issued := ident.issued a' c' before'
        rw [← same] at issued
        exact absurd issued (Nat.lt_irrefl _)
      · rfl

/-- Nothing is moved where each channel that is open has been there before, with these messages. -/
theorem flows_of_same (next : r'.nextId = r.nextId) (each : ∀ a c', r'.find? a = some c' →
    ∃ c, r.find? a = some c ∧ c'.queue = c.queue) : r.Flows [] r' := by
  refine .kept next (fun a c' found => ?_) (List.forall_mem_nil _)
  obtain ⟨c, before, queue⟩ := each a c' found
  have id := (find?_eq_some_iff.1 found).2.trans (find?_eq_some_iff.1 before).2.symm
  exact ⟨c, before, Channel.passes_of_queue id queue⟩

theorem Flows.refl (r : Registry ω) : r.Flows [] r :=
  flows_of_same rfl fun _ c found => ⟨c, found, rfl⟩

/-- An operation on one channel moves the messages that it moves there. -/
theorem Flows.put (ident : r.Identified) (found : r.find? a = some c)
    (passes : c.Passes (sentTo a.id ts) (receivedFrom a.id ts) c') (about : ∀ t ∈ ts, t.id = a.id) :
    r.Flows ts (r.put a.handle c') := by
  refine .kept rfl (fun a' d after => ?_) fun t member => ⟨a, c, found, (about t member).symm⟩
  rcases find?_put_cases found passes.id after with ⟨rfl, rfl⟩ | ⟨other, before⟩
  · exact ⟨c, found, passes⟩
  · have others (t : Transfer) (member : t ∈ ts) : t.id ≠ a'.id := by
      rw [about t member]
      exact fun same => other (ident.distinct a a' c d found before same).symm
    rw [sentTo_eq_nil others, receivedFrom_eq_nil others]
    exact ⟨d, before, .refl d⟩

/-- An operation on one channel puts in the messages that its result stands for. -/
theorem Flows.putSent {α : Type} (ident : r.Identified) (found : r.find? a = some c)
    {messages : α → List Message} {result : Except BusError α}
    (passes : c.Passes (whenGranted messages result) [] c') :
    r.Flows (whenGranted (fun v => [.sent a.id (messages v)]) result) (r.put a.handle c') := by
  cases result with
  | error e => exact .put ident found passes (List.forall_mem_nil _)
  | ok v =>
    refine .put ident found ?_ (List.forall_mem_singleton.2 rfl)
    simpa using passes

/-- An operation on one channel takes out the messages that its result stands for. -/
theorem Flows.putReceived {α : Type} (ident : r.Identified) (found : r.find? a = some c)
    {messages : α → List Message} {result : Except BusError α}
    (passes : c.Passes [] (whenGranted messages result) c') :
    r.Flows (whenGranted (fun v => [.received a.id (messages v)]) result) (r.put a.handle c') := by
  cases result with
  | error e => exact .put ident found passes (List.forall_mem_nil _)
  | ok v =>
    refine .put ident found ?_ (List.forall_mem_singleton.2 rfl)
    simpa using passes

/-- What is open after a channel was opened was so before, or is the new channel in its slot. -/
theorem channel?_openChannel {bound : Nat}
    (found : (r.openChannel bound).state.channel? h = some c) : r.channel? h = some c ∨
      h = (r.openChannel bound).answer ∧ c = .fresh ⟨r.nextId⟩ bound := by
  have atMost : r.slots.findIdx (·.isNone) ≤ r.slots.length := List.findIdx_le_length
  have slot := channel?_eq_some_iff.1 found
  simp only [openChannel] at slot
  split at slot
  · rename_i inside
    by_cases same : h = r.slots.findIdx (·.isNone)
    · rw [same, List.getElem?_set_self inside] at slot
      cases slot
      exact .inr ⟨same, rfl⟩
    · rw [List.getElem?_set_ne (Ne.symm same)] at slot
      exact .inl (channel?_eq_some_iff.2 slot)
  · rename_i outside
    rw [List.getElem?_append] at slot
    split at slot
    · exact .inl (channel?_eq_some_iff.2 slot)
    · rename_i before
      obtain ⟨last, rfl⟩ : h - r.slots.length = 0 ∧ c = .fresh ⟨r.nextId⟩ bound := by
        simpa [List.getElem?_singleton, and_comm, eq_comm] using slot
      have full := Nat.le_antisymm atMost (Nat.le_of_not_lt outside)
      have here := Nat.le_antisymm (Nat.sub_eq_zero_iff_le.1 last) (Nat.le_of_not_lt before)
      exact .inr ⟨here.trans full.symm, rfl⟩

theorem flows_openChannel (r : Registry ω) (bound : Nat) :
    r.Flows [] (r.openChannel bound).state := by
  refine .opened (r.openChannel bound).answer bound rfl fun a c' found => ?_
  obtain ⟨there, id⟩ := find?_eq_some_iff.1 found
  rcases channel?_openChannel there with before | ⟨here, rfl⟩
  · exact .inl (find?_eq_some_iff.2 ⟨before, id⟩)
  · refine .inr ⟨?_, rfl⟩
    rw [← here, show (⟨r.nextId⟩ : ChannelId) = a.id from id]

theorem flows_close (r : Registry ω) (h : Handle) : r.Flows [] (r.close h).state := by
  refine flows_of_same ?_ fun a c' found => ⟨c', find?_close found, rfl⟩
  rw [close]
  split <;> rfl

theorem flows_delete (r : Registry ω) : r.Flows [] r.delete.state :=
  flows_of_same rfl fun _ _ found => by cases found

/-- A closed channel is not found under its address any more. -/
theorem find?_close_eq_none (r : Registry ω) (a : Address) :
    (r.close a.handle).state.find? a = none := by
  rw [find?, channel?_close, if_pos rfl]
  rfl

/-- The identities of the open channels are all different. -/
theorem Identified.nodup (ident : r.Identified) : (r.channels.map (·.id)).Nodup := by
  rw [channels, List.map_filterMap, List.nodup_iff_pairwise_ne, List.pairwise_filterMap,
    List.pairwise_iff_getElem]
  intro i j inside inside' before id taken id' taken' same
  obtain ⟨c, there, rfl⟩ := Option.map_eq_some_iff.1 taken
  obtain ⟨c', there', rfl⟩ := Option.map_eq_some_iff.1 taken'
  have found (k : Nat) (inside : k < r.slots.length) (d : Channel ω)
      (there : r.slots[k] = some d) : r.find? ⟨k, d.id⟩ = some d :=
    find?_of_channel? (channel?_eq_some_iff.2 (List.getElem?_eq_some_iff.2 ⟨inside, there⟩))
  have one := ident.distinct _ _ _ _ (found i inside c there) (found j inside' c' there') same
  exact absurd (congrArg Address.handle one) (Nat.ne_of_lt before)

/-- A broadcast puts its message into each channel once. -/
theorem flows_commitAll (ident : r.Identified) (m : Message) (cascade : Bool) :
    r.Flows (r.channels.map (.sent ·.id [m])) (r.commitAll m cascade).state := by
  refine .kept rfl (fun a c' found => ?_) fun t member => ?_
  · rw [find?_commitAll] at found
    obtain ⟨c, before, rfl⟩ := Option.map_eq_some_iff.1 found
    refine ⟨c, before, ?_⟩
    have received : receivedFrom a.id (r.channels.map (.sent ·.id [m])) = [] := by
      rw [receivedFrom, List.flatMap_map]
      exact List.flatMap_eq_nil_iff.2 fun _ _ => rfl
    have sent : sentTo a.id (r.channels.map (.sent ·.id [m])) = [m] := by
      have member : a.id ∈ r.channels.map (·.id) :=
        (find?_eq_some_iff.1 before).2 ▸ List.mem_map_of_mem (mem_channels_of_find? before)
      have once := sentTo_map_sent ident.nodup member [m]
      rwa [List.map_map] at once
    rw [received, sent]
    exact c.passes_commit m cascade
  · obtain ⟨c, open', rfl⟩ := List.mem_map.1 member
    obtain ⟨h, found⟩ := mem_channels_iff.1 open'
    exact ⟨⟨h, c.id⟩, c, find?_of_channel? found, rfl⟩

end Registry

end MessageBus
