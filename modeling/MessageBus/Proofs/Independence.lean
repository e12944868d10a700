import MessageBus.Proofs.Catalogue.Runs
import MessageBus.Proofs.Identities

/-!
# Channels are independent

An operation on the channel under one handle reads this channel and may change its slot; what it
does, can be told from the slot alone (`Operation.isLocal`). So two operations under different
handles can be exchanged (`Operation.exchanges`), also where an executor is asked for them and
wakeups are deferred.

Whatever else is done on a bus under one handle, be it by a call that begins, by one that goes on or
by one that is dropped and passes its wakeup on, leaves the channels under all other handles as
they are (`Errand.channel?_of_ne`), and so does a run of such steps
(`Executor.channels_are_independent`).
-/

namespace MessageBus

/-- The handle that an operation on one channel names. -/
def Operation.handle? : Operation → Option Handle
  | .close h | .isOpen h | .size h | .isEmpty h | .capacity h | .waiting _ h | .trySend h _
  | .trySendMany h _ | .tryRecv h | .tryRecvMany h _ => some h
  | .openChannel _ | .delete | .channelCount | .tryBroadcast _ => none

/-! ### One slot -/

namespace Registry

variable {ω α : Type} {r r' : Registry ω} {h h' : Handle} {a : Address} {c : Channel ω}

/-- Puts something else into a slot. -/
def setSlot (r : Registry ω) (h : Handle) (slot : Option (Channel ω)) : Registry ω :=
  { r with slots := r.slots.set h slot }

theorem setSlot_self (r : Registry ω) (h : Handle) : r.setSlot h (r.channel? h) = r := by
  rw [setSlot, channel?]
  cases there : r.slots[h]? with
  | none => rw [List.set_eq_of_length_le (List.getElem?_eq_none_iff.1 there)]
  | some slot =>
    obtain ⟨inside, here⟩ := List.getElem?_eq_some_iff.1 there
    rw [Option.join_some, ← here, List.set_getElem_self]

theorem setSlot_of_channel? {slot : Option (Channel ω)} (there : r.channel? h = slot) :
    r.setSlot h slot = r := there ▸ r.setSlot_self h

theorem setSlot_comm (r : Registry ω) (apart : h ≠ h') (slot slot' : Option (Channel ω)) :
    (r.setSlot h slot).setSlot h' slot' = (r.setSlot h' slot').setSlot h slot := by
  simp only [setSlot, List.set_comm _ _ apart]

theorem channel?_setSlot_of_ne (r : Registry ω) (other : h' ≠ h) (slot : Option (Channel ω)) :
    (r.setSlot h slot).channel? h' = r.channel? h' := by
  rw [channel?, channel?, setSlot, List.getElem?_set_ne other.symm]

theorem exists_local_onChannel
    {act : Channel ω → Except Fault (Outcome (Channel ω) ω (Except BusError α))}
    (acts : ∀ c, ∃ o, act c = .ok o) (slot : Option (Channel ω)) :
    ∃ o : Outcome (Option (Channel ω)) ω (Except BusError α), ∀ r : Registry ω,
      r.channel? h = slot → r.onChannel h act = .ok (o.within (r.setSlot h)) := by
  cases slot with
  | none =>
    refine ⟨{ answer := .error .noSuchChannel, state := none }, fun r there => ?_⟩
    simp only [onChannel, there, Outcome.within, setSlot_of_channel? there]
  | some c =>
    obtain ⟨o, done⟩ := acts c
    refine ⟨o.within some, fun r there => ?_⟩
    simp only [onChannel, there, done]
    rfl

theorem exists_local_inspect (h : Handle) (look : Channel ω → α) (slot : Option (Channel ω)) :
    ∃ result, ∀ r : Registry ω, r.channel? h = slot → r.inspect h look = result := by
  cases slot with
  | none => exact ⟨.error .noSuchChannel, fun r there => by rw [inspect, there]⟩
  | some c => exact ⟨.ok (look c), fun r there => by rw [inspect, there]⟩

/-- A channel is found under a handle if it is found at an address there. -/
theorem channel?_eq_of_find? (same : ∀ a : Address, a.handle = h → r'.find? a = r.find? a) :
    r'.channel? h = r.channel? h := by
  refine Option.ext fun c => ?_
  have own := same ⟨h, c.id⟩ rfl
  have slot (r : Registry ω) : r.find? ⟨h, c.id⟩ = some c ↔ r.channel? h = some c := by
    rw [find?_eq_some_iff]
    exact and_iff_left rfl
  rw [← slot, ← slot, own]

end Registry

/-! ### Operations that are exchanged -/

namespace Operation

variable {ω α : Type} {op op' : Operation} {r : Registry ω} {h h' : Handle}

/-- Whether what an operation does under a handle can be told from what the slot there holds, all
else being left as it is. -/
def IsLocal (op : Operation) (h : Handle) (slot : Option (Channel ω)) : Prop :=
  ∃ o : Outcome (Option (Channel ω)) ω Reply, ∀ r : Registry ω, r.channel? h = slot →
    op.apply r = .ok (o.within (r.setSlot h))

theorem isLocal_of_look {slot : Option (Channel ω)} {value : α → Value} {look : Channel ω → α}
    (same : ∀ r : Registry ω, op.apply r = apply.look r (.ofExcept value (r.inspect h look))) :
    op.IsLocal h slot := by
  obtain ⟨result, seen⟩ := Registry.exists_local_inspect h look slot
  refine ⟨{ answer := .ofExcept value result, state := slot }, fun r there => ?_⟩
  rw [same, seen r there, apply.look, Outcome.within, Registry.setSlot_of_channel? there]

theorem isLocal_of_answer {slot : Option (Channel ω)} {value : α → Value}
    {act : Channel ω → Except Fault (Outcome (Channel ω) ω (Except BusError α))}
    (acts : ∀ c, ∃ o, act c = .ok o)
    (same : ∀ r : Registry ω, op.apply r = apply.answer value (r.onChannel h act)) :
    op.IsLocal h slot := by
  obtain ⟨o, ran⟩ := Registry.exists_local_onChannel (h := h) acts slot
  refine ⟨o.map (.ofExcept value), fun r there => ?_⟩
  rw [same, ran r there]
  rfl

theorem isLocal_close (h : Handle) (slot : Option (Channel ω)) : (close h).IsLocal h slot := by
  cases slot with
  | none =>
    refine ⟨{ answer := .plain .nothing, state := none }, fun r there => ?_⟩
    simp only [apply, Registry.close, there, Outcome.within, Registry.setSlot_of_channel? there]
    rfl
  | some c =>
    let closed : Outcome (Option (Channel ω)) ω Reply :=
      { answer := .plain .nothing
        state := none
        woken := c.close
        notes := [.closed h c.close.length c.size] }
    refine ⟨closed, fun r there => ?_⟩
    simp only [apply, Registry.close, there]
    rfl

/-- What an operation under one handle does, can be told from its slot. -/
theorem isLocal (own : op.handle? = some h) (slot : Option (Channel ω)) : op.IsLocal h slot := by
  cases op with
  | openChannel _ | delete | channelCount | tryBroadcast _ => cases own
  | close _ =>
    cases own
    exact isLocal_close _ slot
  | isOpen _ =>
    cases own
    refine ⟨{ answer := .plain (.flag slot.isSome), state := slot }, fun r there => ?_⟩
    rw [apply, apply.look, Registry.isOpen, there, Outcome.within,
      Registry.setSlot_of_channel? there]
  | size _ | isEmpty _ | capacity _ | waiting _ _ =>
    cases own
    exact isLocal_of_look fun r => rfl
  | trySend _ _ | trySendMany _ _ | tryRecv _ =>
    cases own
    exact isLocal_of_answer (fun c => ⟨_, rfl⟩) fun r => rfl
  | tryRecvMany _ limit =>
    cases own
    refine isLocal_of_answer (fun c => ?_) fun r => rfl
    rcases Nat.eq_zero_or_pos c.queue.size with empty | some
    · exact ⟨_, Channel.tryRecvMany_of_empty empty limit⟩
    · obtain ⟨o, -, ran, -⟩ := Channel.becomes_tryRecvMany some limit
      exact ⟨o, ran⟩

/-- Two operations can be exchanged on a registry. Whichever comes first, each finds its channel
as it is now and leaves it in the same state, and answers, wakes and tells the same; in the end the
registry is the same. -/
structure Exchanges (op op' : Operation) (r : Registry ω) (h h' : Handle)
    (o o' p p' : Outcome (Registry ω) ω Reply) : Prop where
  first : op.apply r = .ok o ∧ op'.apply o.state = .ok o'
  second : op'.apply r = .ok p' ∧ op.apply p'.state = .ok p
  same : p = { o with state := p.state } ∧ o' = { p' with state := o'.state }
  finds : p'.state.channel? h = r.channel? h ∧ o.state.channel? h' = r.channel? h'
  leaves : p.state.channel? h = o.state.channel? h ∧ o'.state.channel? h' = p'.state.channel? h'
  final : p.state = o'.state

theorem exchanges (own : op.handle? = some h) (own' : op'.handle? = some h') (apart : h ≠ h')
    (r : Registry ω) : ∃ o o' p p', op.Exchanges op' r h h' o o' p p' := by
  obtain ⟨o, ran⟩ := isLocal own (r.channel? h)
  obtain ⟨p, ran'⟩ := isLocal own' (r.channel? h')
  have finds := r.channel?_setSlot_of_ne apart p.state
  have finds' := r.channel?_setSlot_of_ne apart.symm o.state
  refine ⟨o.within (r.setSlot h), p.within ((r.setSlot h o.state).setSlot h'),
    o.within ((r.setSlot h' p.state).setSlot h), p.within (r.setSlot h'), ?_⟩
  refine ⟨⟨ran r rfl, ran' _ finds'⟩, ⟨ran' r rfl, ran _ finds⟩, ⟨rfl, rfl⟩, ⟨finds, finds'⟩, ?_,
    (r.setSlot_comm apart o.state p.state).symm⟩
  constructor
  · show ((r.setSlot h' p.state).setSlot h o.state).channel? h = _
    rw [← r.setSlot_comm apart]
    exact Registry.channel?_setSlot_of_ne _ apart _
  · show ((r.setSlot h o.state).setSlot h' p.state).channel? h' = _
    rw [r.setSlot_comm apart]
    exact Registry.channel?_setSlot_of_ne _ apart.symm _

end Operation

/-! ### What is done under one handle -/

namespace Errand

variable {ω : Type} {r : Registry ω} {e : Errand ω} {o : Outcome (Registry ω) ω Upshot}
  {h h' : Handle}

/-- Whether an errand is on the channel under one handle. Opening a channel is on the one that is
opened. -/
def IsUnder (r : Registry ω) (h : Handle) : Errand ω → Prop
  | operate op => op.handle? = some h ∨
    ∃ bound, op = .openChannel bound ∧ r.slots.findIdx (·.isNone) = h
  | look q _ _ => ∃ a ∈ q.address?, a.handle = h
  | park a _ _ => a.handle = h
  | revisit p _ => p.address.handle = h
  | abandon p => p.address.handle = h
  | glance => True

/-- Whether a request that waits does so at its own channel. -/
def IsSteady : Errand ω → Prop
  | look q prior _ => ∀ a ∈ q.address?, ∀ p ∈ prior, p.address = a
  | _ => True

/-- An errand under one handle changes no channel under another. -/
theorem channel?_of_ne (steady : e.IsSteady) (under : e.IsUnder r h) (ran : e.effect r = .ok o)
    (other : h' ≠ h) : o.state.channel? h' = r.channel? h' := by
  have about {a : Address} (own : a.handle = h) (about : e.IsAbout a) :
      o.state.channel? h' = r.channel? h' := by
    refine Registry.channel?_eq_of_find? fun a' there => e.find?_of_ne about ran fun same => ?_
    rw [same, own] at there
    exact other there.symm
  cases e with
  | operate op =>
    obtain ⟨p, did, rfl⟩ := Outcome.of_map_eq_ok ran
    rcases under with own | ⟨bound, rfl, rfl⟩
    · obtain ⟨p', local'⟩ := Operation.isLocal own (r.channel? h)
      cases did.symm.trans (local' r rfl)
      exact r.channel?_setSlot_of_ne other _
    · cases did
      exact (r.channel?_openChannel_eq bound h').trans (if_neg other)
  | look q prior k =>
    obtain ⟨a, own, handle⟩ := under
    exact about handle ⟨own, steady a own⟩
  | park a side k => exact about under rfl
  | revisit p k => exact about under rfl
  | abandon p => exact about under rfl
  | glance =>
    cases ran
    rfl

end Errand

namespace Executor

variable {u : Usage} {x y : Executor} {b b' t : Nat} {h h' : Handle} {e : Errand Waker} {f : Frame}
  {o : Outcome (Registry Waker) Waker Upshot} {change : Task → Task} {frames : List Frame}
  {errand : Option (Nat × Errand Waker)} {op op' : Operation}

/-- A task waits for a request at the channel that the request is about. -/
theorem Sequel.isSteady (sequel : x.Sequel f b e o t change frames)
    (faithful : ∀ (t : Nat) task, x.tasks[t]? = some task → task.IsFaithful) : e.IsSteady := by
  cases sequel with
  | @looks w task _ _ prior _ _ found pursues _ =>
    cases pursues with
    | calling progress =>
      intro a own p there
      obtain rfl : prior = some p := there
      exact ((faithful _ task found).call _ _ p _ progress).2 a own
    | call _ _ _ => exact fun a _ p there => nomatch there
    | recvFrom _ _ _ => exact fun a _ p there => nomatch there
  | @looksAtStream w task s id _ found _ stream known _ =>
    intro a own p there
    exact ((faithful _ task found).fits_of_stream stream known p there).2 a own
  | _ => trivial

/-- Whether an errand, if there is one, is under one handle of one bus. -/
def KeepsUnder (x : Executor) (b : Nat) (h : Handle) (errand : Option (Nat × Errand Waker)) :
    Prop :=
  ∀ b' e, errand = some (b', e) → b' = b ∧ e.IsUnder (x.registry b) h

/-- All channels but the one under a handle of a bus are as they were. -/
def LeavesOthers (x y : Executor) (b : Nat) (h : Handle) : Prop :=
  ∀ b' h', (b', h') ≠ (b, h) → (y.registry b').channel? h' = (x.registry b').channel? h'

theorem leavesOthers_of_errand (keeps : x.KeepsUnder b h errand)
    (steady : ∀ b' e, errand = some (b', e) → (x.carried b' e).isSome → e.IsSteady)
    (registry : ∀ b', y.registry b' =
      ((x.outcomeOn errand b').map (·.state)).getD (x.registry b')) : x.LeavesOthers y b h := by
  intro b' h' other
  rw [registry b']
  cases outcome : x.outcomeOn errand b' with
  | none => rfl
  | some o =>
    obtain ⟨⟨bus, e⟩, same, carried⟩ := Option.bind_eq_some_iff.1 outcome
    split at carried
    · rename_i here
      obtain rfl : bus = b' := here
      obtain ⟨rfl, under⟩ := keeps bus e same
      have steady := steady bus e same (by rw [carried]; rfl)
      exact e.channel?_of_ne steady under (effect_of_carried carried)
        fun same => other (by rw [same])
    · cases carried

theorem Arises.leavesOthers_step (arises : x.Arises) (keeps : x.KeepsUnder b h x.errand?) :
    x.LeavesOthers x.step b h := by
  refine leavesOthers_of_errand keeps (fun b' e errand carried => ?_) x.registry_step
  cases stack : x.stack with
  | nil =>
    rw [errand?, stack] at errand
    cases errand
  | cons f rest =>
    have same {b'' : Nat} {e' : Errand Waker} (errand' : x.errand? = some (b'', e')) :
        b'' = b' ∧ e' = e := by
      cases errand.symm.trans errand'
      exact ⟨rfl, rfl⟩
    cases x.step_unfolds stack with
    | enters errand' _ sequel _ =>
      obtain ⟨rfl, rfl⟩ := same errand'
      exact sequel.isSteady arises.keepsTargets.faithful
    | fails errand' failed _ _ _ _ =>
      obtain ⟨rfl, rfl⟩ := same errand'
      rw [failed] at carried
      cases carried
    | quiet none _ _ => cases none.symm.trans errand
    | releases none _ => cases none.symm.trans errand
    | polls none _ _ _ _ => cases none.symm.trans errand
    | readies none _ _ _ _ => cases none.symm.trans errand
    | drains none _ _ _ _ => cases none.symm.trans errand

theorem leavesOthers_ask (s : Step) (keeps : x.KeepsUnder b h s.errand?) :
    x.LeavesOthers ({ x with log := [], answer := none }.ask s) b h := by
  refine leavesOthers_of_errand keeps (fun b' e errand _ => ?_)
    (registry_ask { x with log := [], answer := none } s)
  obtain ⟨op, rfl⟩ : ∃ op, e = .operate op := by
    rw [Step.errand?.eq_def] at errand
    split at errand <;> cases errand
    exact ⟨_, rfl⟩
  trivial

/-- A part of a run in which whatever is done on a bus is done under one handle. -/
inductive GoesUnder (b : Nat) (h : Handle) (x : Executor) : Executor → Prop where
  | refl : GoesUnder b h x x
  | step {y : Executor} (goes : GoesUnder b h x y) (keeps : y.KeepsUnder b h y.errand?) :
    GoesUnder b h x y.step
  | ask {y : Executor} (goes : GoesUnder b h x y) (s : Step) (keeps : y.KeepsUnder b h s.errand?) :
    GoesUnder b h x ({ y with log := [], answer := none }.ask s)

theorem GoesUnder.leavesOthers (goes : x.GoesUnder b h y) (arises : x.Arises) :
    y.Arises ∧ x.LeavesOthers y b h := by
  induction goes with
  | refl => exact ⟨arises, fun _ _ _ => rfl⟩
  | step _ keeps ih =>
    obtain ⟨arises, same⟩ := ih
    exact ⟨arises.follows .step, fun b' h' other =>
      (arises.leavesOthers_step keeps b' h' other).trans (same b' h' other)⟩
  | ask _ s keeps ih =>
    obtain ⟨arises, same⟩ := ih
    exact ⟨arises.follows (.ask s), fun b' h' other =>
      (leavesOthers_ask s keeps b' h' other).trans (same b' h' other)⟩

/-- What is carried out when a bus is asked for an operation. -/
def operated (x : Executor) (b : Nat) (op : Operation) : Executor :=
  x.carryOut (.act b (.operate op))

/-- A bus is asked for two operations, one after the other. Whichever comes first, each is answered
in the same way and calls the same wakers in the same order, and in the end all buses are the
same. -/
structure Exchanged (x : Executor) (b : Nat) (op op' : Operation) : Prop where
  answered : ((x.operated b op).answer).isSome ∧ ((x.operated b op').answer).isSome
  answer : ((x.operated b op').operated b op).answer = (x.operated b op).answer
  answer' : ((x.operated b op).operated b op').answer = (x.operated b op').answer
  calls : wokenIn ((x.operated b op').operated b op).log = wokenIn (x.operated b op).log
  calls' : wokenIn ((x.operated b op).operated b op').log = wokenIn (x.operated b op').log
  buses : ((x.operated b op').operated b op).buses = ((x.operated b op).operated b op').buses

theorem Reachable.exchanged (reachable : x.Reachable u) (idle : x.stack = [])
    (deferred : x.inline = false) (inside : b < x.buses.length) (own : op.handle? = some h)
    (own' : op'.handle? = some h') (apart : h ≠ h') : x.Exchanged b op op' := by
  have operates {x : Executor} (reachable : x.Reachable u) (idle : x.stack = [])
      (deferred : x.inline = false) (inside : b < x.buses.length) {op : Operation}
      {o : Outcome (Registry Waker) Waker Reply} (ran : op.apply (x.registry b) = .ok o) :
      (x.operated b op).Reachable u ∧ (x.operated b op).stack = [] ∧
        (x.operated b op).inline = false ∧ b < (x.operated b op).buses.length ∧
        (x.operated b op).registry b = o.state ∧
        (x.operated b op).buses = x.buses.set b ⟨o.state, false⟩ ∧
        (x.operated b op).answer = some o.answer ∧
        wokenIn (x.operated b op).log = o.woken.reverse := by
    obtain ⟨y, rfl, idle', inline, buses, answer, calls⟩ :=
      carryOut_operation reachable idle (fun _ => deferred) inside ran
    refine ⟨(reachable.next (.ask (s := .act b (.operate op)) idle inside)).settle _, idle',
      inline.trans deferred, ?_, registry_set_self inside buses, buses, answer, calls⟩
    rw [operated, buses, List.length_set]
    exact inside
  obtain ⟨o, o', p, p', ⟨ran, later⟩, ⟨ran', later'⟩, ⟨same, same'⟩, -, -, final⟩ :=
    Operation.exchanges own own' apart (x.registry b)
  obtain ⟨reachable₁, idle₁, deferred₁, inside₁, registry₁, buses₁, answer₁, calls₁⟩ :=
    operates reachable idle deferred inside ran
  obtain ⟨reachable₂, idle₂, deferred₂, inside₂, registry₂, buses₂, answer₂, calls₂⟩ :=
    operates reachable idle deferred inside ran'
  obtain ⟨-, -, -, -, -, buses₁', answer₁', calls₁'⟩ :=
    operates reachable₁ idle₁ deferred₁ inside₁ (registry₁ ▸ later)
  obtain ⟨-, -, -, -, -, buses₂', answer₂', calls₂'⟩ :=
    operates reachable₂ idle₂ deferred₂ inside₂ (registry₂ ▸ later')
  refine ⟨⟨by rw [answer₁]; rfl, by rw [answer₂]; rfl⟩, ?_, ?_, ?_, ?_, ?_⟩
  · rw [answer₂', answer₁, same]
  · rw [answer₁', answer₂, same']
  · rw [calls₂', calls₁, same]
  · rw [calls₁', calls₂, same']
  · rw [buses₂', buses₁', buses₁, buses₂, List.set_set, List.set_set, final]

/-! ### Independence -/

/-- The channels of all buses are independent, now and in whatever the run comes to. -/
structure HasIndependentChannels (x : Executor) : Prop where
  /-- Operations under two handles can be exchanged, at any moment. -/
  exchanges : ∀ (b : Nat) (op op' : Operation) (h h' : Handle), op.handle? = some h →
    op'.handle? = some h' → h ≠ h' → ∃ o o' p p', op.Exchanges op' (x.registry b) h h' o o' p p'
  /-- So they can if they are asked for, where wakeups are deferred. -/
  exchanged : ∀ u, x.Reachable u → x.stack = [] → x.inline = false → ∀ b < x.buses.length,
    ∀ (op op' : Operation) (h h' : Handle), op.handle? = some h → op'.handle? = some h' → h ≠ h' →
      x.Exchanged b op op'
  /-- A step that enters a bus under one handle leaves all other channels as they are. -/
  step : ∀ b h e, x.errand? = some (b, e) → e.IsUnder (x.registry b) h →
    x.LeavesOthers x.step b h
  /-- A step that enters no bus leaves all channels as they are. -/
  still : x.errand? = none → ∀ b, x.step.registry b = x.registry b
  /-- Nor does a whole run of such steps change another channel. -/
  run : ∀ b h y, x.GoesUnder b h y → x.LeavesOthers y b h

/-- In every run the channels are independent. -/
theorem channels_are_independent (arises : x.Arises) : x.HasIndependentChannels where
  exchanges b _ _ _ _ own own' apart := Operation.exchanges own own' apart (x.registry b)
  exchanged _ reachable idle deferred _ inside _ _ _ _ own own' apart :=
    reachable.exchanged idle deferred inside own own' apart
  step b h e errand under := by
    refine arises.leavesOthers_step fun b' e' same => ?_
    cases errand.symm.trans same
    exact ⟨rfl, under⟩
  still none b := by
    rw [registry_step, outcomeOn, none]
    rfl
  run _ _ _ goes := (goes.leavesOthers arises).2

/-- A sender waits on a full channel, and two receivers on an empty one. -/
def waitersOnBoth : List Step :=
  [.act 0 (.operate (.openChannel 1)), .act 0 (.operate (.openChannel 2)),
    .act 0 (.operate (.trySend 0 7)), .spawn [⟨0, .call (.send 0 8)⟩] false,
    .spawn [⟨0, .call (.recv 1)⟩] false, .spawn [⟨0, .call (.recv 1)⟩] false, .run none]

/-- A receive under the one handle calls the sender and a send under the other the first receiver,
in either order. -/
theorem receive_and_send_exchanged :
    let x := ((new false).runScript waitersOnBoth).1
    x.HasIndependentChannels ∧ x.Exchanged 0 (.tryRecv 0) (.trySend 1 5) ∧
      wokenIn (x.operated 0 (.tryRecv 0)).log = [⟨0, 0⟩] ∧
      wokenIn (x.operated 0 (.trySend 1 5)).log = [⟨1, 0⟩] := by
  intro x
  have obeys : (new false).Obeys .full waitersOnBoth := by decide +kernel
  have reachable : x.Reachable .full := (reachable_new .full false).runScript obeys
  have idle : x.stack.isEmpty = true := by decide +kernel
  have independent := channels_are_independent reachable.arises
  refine ⟨independent, ?_, by decide +kernel, by decide +kernel⟩
  exact independent.exchanged _ reachable (List.isEmpty_iff.1 idle) (by decide +kernel) 0
    (by decide +kernel) _ _ 0 1 rfl rfl (by decide)

end Executor

end MessageBus
