import MessageBus.Proofs.Batches
import MessageBus.Proofs.Stories.Calls

/-!
# A call sends or receives one batch

However often a call that sends a batch is suspended and called, one of its steps sends the batch,
and it sends what fits then, at the channel that was under the handle when the call began
(`Executor.SentOnce`). The reply is the number of messages that went in, so that those that did not
are the rest of the batch. A call that receives a batch takes it in one step, in the same way
(`Executor.ReceivedOnce`).
-/

namespace MessageBus

/-- What a reply grants, if it grants something. -/
def Reply.granted? : Reply → Option Value
  | .granted v => some v
  | _ => none

theorem Reply.eq_granted {replies : List Reply} {v : Value}
    (granted : replies.map (·.granted?) = [some v]) : replies = [.granted v] := by
  obtain ⟨reply, rfl, same⟩ := List.map_eq_singleton_iff.1 granted
  cases reply with
  | granted _ =>
    cases same
    rfl
  | _ => cases same

namespace Request

variable {a : Address} {side : Side} {v : Value}

theorem of_ofResult_eq_granted {α : Type} {value : α → Value} {result : Except BusError α}
    (granted : Attempt.ofResult a side (result.map value) = .finished (.ok v)) :
    ∃ done, result = .ok done ∧ v = value done := by
  cases result with
  | ok done =>
    cases granted
    exact ⟨done, rfl, rfl⟩
  | error e => cases e <;> cases granted

end Request

namespace Executor

variable {u : Usage} {x : Executor} {t i b limit : Nat} {h : Handle} {a : Address} {task : Task}
  {call : Call} {q : Request} {v : Value} {ms : List Message} {steps : List Executor}
  {replies : List Reply}

/-- The next step sends a batch to the channel at an address, where a slot is free, and so many of
the messages go in. -/
def SendsBatch (x : Executor) (b : Nat) (a : Address) (ms : List Message) (n : Nat) : Prop :=
  ∃ c, (x.registry b).find? a = some c ∧ c.freeSlots ≠ 0 ∧ (c.trySendMany ms).answer = .ok n ∧
    x.Changes b ((x.registry b).put a.handle (c.trySendMany ms).state) (c.trySendMany ms).woken

/-- The next step receives these messages from the channel at an address, which holds some, and
hands on what it leaves. -/
def ReceivesBatch (x : Executor) (b : Nat) (a : Address) (limit : Nat) (ms : List Message) : Prop :=
  ∃ c o, (x.registry b).find? a = some c ∧ c.queue.items ≠ [] ∧ c.recvManyStep limit = .ok o ∧
    o.answer = .ok ms ∧ (1 ≤ limit → ms ≠ []) ∧
    x.Changes b ((x.registry b).put a.handle o.state) o.woken

/-- Where the task first goes on, the channel at this address is the one under the handle. -/
def Resolves (t b : Nat) (h : Handle) (a : Address) (steps : List Executor) : Prop :=
  ∃ before z after, steps = before ++ z :: after ∧ (∀ y ∈ before, ¬y.Proceeds t) ∧
    z.Proceeds t ∧ (z.registry b).resolve h = .ok a

/-- In one of its steps a call sent its batch, to the channel that it found when it began, and the
value is the number of messages that went in. -/
def SentOnce (t b : Nat) (h : Handle) (ms : List Message) (v : Value) (steps : List Executor) :
    Prop :=
  ∃ a n, v = .number n ∧ Resolves t b h a steps ∧ Once (·.SendsBatch b a ms n) steps

/-- In one of its steps a call received a batch from the channel that it found when it began, and
the value is the messages that it took. -/
def ReceivedOnce (t b : Nat) (h : Handle) (limit : Nat) (v : Value) (steps : List Executor) :
    Prop :=
  ∃ a ms, v = .messages ms ∧ Resolves t b h a steps ∧ Once (·.ReceivesBatch b a limit ms) steps

theorem Makes.resolves {make : Address → Request} (makes : Makes t b call q steps)
    (about : ∀ r : Registry Waker, call.resolve r = (r.resolve h).map make) :
    ∃ a, q = make a ∧ Resolves t b h a steps := by
  obtain ⟨before, z, after, split, earlier, proceeds, resolved⟩ := makes
  rw [about] at resolved
  cases found : (z.registry b).resolve h with
  | error e =>
    rw [found] at resolved
    cases resolved
  | ok a =>
    rw [found] at resolved
    cases resolved
    exact ⟨a, rfl, before, z, after, split, earlier, proceeds, found⟩

theorem Grants.sendsBatch (grants : x.Grants b (.sendMany a ms) v) :
    ∃ n, v = .number n ∧ x.SendsBatch b a ms n := by
  obtain ⟨o, attempts, granted, changes⟩ := grants
  obtain ⟨p, done, rfl⟩ := Outcome.of_map_eq_ok attempts
  obtain ⟨n, answer, rfl⟩ := Request.of_ofResult_eq_granted granted
  rcases Registry.of_onAddress_eq_ok done with rfl | ⟨c, sent, found, acted, rfl⟩
  · cases answer
  · cases acted
    have answer : (c.trySendMany ms).answer = .ok n := answer
    refine ⟨n, rfl, c, found, fun full => ?_, answer, changes⟩
    rw [(c.sendsAsEach ms).full full] at answer
    cases answer

theorem Grants.receivesBatch (grants : x.Grants b (.recvMany a limit) v) :
    ∃ ms, v = .messages ms ∧ x.ReceivesBatch b a limit ms := by
  obtain ⟨o, attempts, granted, changes⟩ := grants
  obtain ⟨p, done, rfl⟩ := Outcome.of_map_eq_ok attempts
  obtain ⟨ms, answer, rfl⟩ := Request.of_ofResult_eq_granted granted
  rcases Registry.of_onAddress_eq_ok done with rfl | ⟨c, p, found, acted, rfl⟩
  · cases answer
  · have answer : p.answer = .ok ms := answer
    have some : c.queue.items ≠ [] := fun none => by
      cases acted.symm.trans (Channel.recvManyStep_of_empty (congrArg List.length none) limit)
      cases answer
    obtain ⟨taken, ms', ran, each⟩ := Channel.receivesAsEach some limit
    obtain ⟨o, step, hands⟩ := Channel.handsOn ran each.answer
    cases acted.symm.trans step
    cases answer.symm.trans (hands.answer.trans each.answer)
    exact ⟨ms, rfl, c, p, found, some, acted, answer, each.some, changes⟩

theorem CarriedOut.sentOnce (carried : CarriedOut t b (.sendMany h ms) v steps) :
    SentOnce t b h ms v steps := by
  obtain ⟨q, makes, before, z, after, split, grants, others⟩ := carried
  obtain ⟨a, rfl, resolves⟩ := makes.resolves fun r => rfl
  obtain ⟨n, rfl, sends⟩ := grants.sendsBatch
  exact ⟨a, n, rfl, resolves, before, z, after, split, sends, others⟩

theorem CarriedOut.receivedOnce (carried : CarriedOut t b (.recvMany h limit) v steps) :
    ReceivedOnce t b h limit v steps := by
  obtain ⟨q, makes, before, z, after, split, grants, others⟩ := carried
  obtain ⟨a, rfl, resolves⟩ := makes.resolves fun r => rfl
  obtain ⟨ms, rfl, receives⟩ := grants.receivesBatch
  exact ⟨a, ms, rfl, resolves, before, z, after, split, receives, others⟩

/-- A batch is sent as its messages are one by one. On every channel, a batch is refused if no slot
is free, and otherwise does what single sends do until the first is refused, and wakes one sender
more. In every run, a call that sends a batch does so in one step, at the channel that it found
when it began, or not at all, and is answered the number of messages that went in. -/
theorem batch_sends_as_each :
    (∀ {ω : Type} (c : Channel ω) (ms : List Message), c.SendsAsEach ms) ∧
    ∀ {u : Usage} {t i b : Nat} {h : Handle} {ms : List Message} {x : Executor} {task : Task}
      {steps : List Executor} {replies : List Reply}, Story u t i x steps replies →
      x.tasks[t]? = some task → task.program[i]? = some ⟨b, .call (.sendMany h ms)⟩ →
      IsAnswered (SentOnce t b h ms) task steps replies :=
  ⟨fun c ms => c.sendsAsEach ms, fun story found begun =>
    (story.isAnswered found begun).mono fun _ => CarriedOut.sentOnce⟩

/-- A batch is sent to a channel that is full. The task is polled in vain, then called for a slot
that is taken before it goes on. Two more senders park behind it before it is called again. -/
def batchHeldUp : List Step :=
  [.act 0 (.operate (.openChannel 2)), .act 0 (.operate (.trySendMany 0 [7, 8, 9])),
    .spawn [⟨0, .call (.sendMany 0 [1, 2, 3])⟩] false, .run none, .poll ⟨0, 5⟩,
    .act 0 (.operate (.tryRecv 0)), .act 0 (.operate (.trySend 0 9)), .run none,
    .spawn [⟨0, .call (.send 0 4)⟩] false, .spawn [⟨0, .call (.send 0 5)⟩] false, .run none,
    .act 0 (.operate (.tryRecvMany 0 2)), .run none]

/-- A channel with two free slots, where two senders and a receiver wait. -/
def twoFreeSlots : Channel Nat :=
  ⟨⟨0⟩, 3, ⟨[4]⟩, ⟨[⟨⟨1⟩, 7⟩, ⟨⟨2⟩, 8⟩]⟩, ⟨[⟨⟨3⟩, 9⟩]⟩⟩

theorem batch_sent_once :
    (twoFreeSlots.SendsAsEach [5, 6, 7] ∧ (twoFreeSlots.trySendMany [5, 6, 7]).answer = .ok 2 ∧
      (twoFreeSlots.trySendMany [5, 6, 7]).woken = [9, 7] ∧
      (twoFreeSlots.trySendMany [5, 6, 7]).state.senders.waiters = [⟨⟨2⟩, 8⟩]) ∧
    ∃ x steps replies, Story .full 0 0 x steps replies ∧
      replies = [.granted (.number 2)] ∧ 6 < steps.length ∧
      SentOnce 0 0 0 [1, 2, 3] (.number 2) steps ∧
      (x.registry 0).channels.map (fun c => (c.queue.items, c.senders.size)) = [([1, 2], 2)] := by
  constructor
  · have sends := batch_sends_as_each.1 twoFreeSlots [5, 6, 7]
    rw [sends.each (by decide)]
    exact ⟨sends, rfl, rfl, rfl⟩
  · have obeys : (new false).Obeys .full batchHeldUp := by decide +kernel
    have story := (Story.new (u := .full) (t := 0) (i := 0) false).runScript obeys
    have program : (((new false).runScript batchHeldUp).1.tasks[0]?).map (·.program) =
        some [⟨0, .call (.sendMany 0 [1, 2, 3])⟩] := by decide +kernel
    obtain ⟨task, found, program⟩ := Option.map_eq_some_iff.1 program
    have answered := batch_sends_as_each.2 story found (by rw [program]; rfl)
    have told : [] ++ (storyOfScript 0 0 (new false) batchHeldUp).2 = [.granted (.number 2)] :=
      Reply.eq_granted (by decide +kernel)
    exact ⟨_, _, _, story, told, by decide +kernel, answered.granted _ told, by decide +kernel⟩

/-- A batch is received as its messages are one by one. On every channel that holds messages, a
batch is what single receives take, and only the first of the senders is woken that those would
wake; a caller that is able to wait hands on what it leaves to one receiver. In every run, a call
that receives a batch does so in one step, from the channel that it found when it began, or not at
all, and is answered the messages that it took. -/
theorem batch_receives_as_each :
    (∀ {ω : Type} (c : Channel ω) (limit : Nat), c.queue.items ≠ [] → ∃ taken ms o,
      c.tryRecvMany limit = .ok taken ∧ c.ReceivesAsEach limit taken ms ∧
      c.recvManyStep limit = .ok o ∧ Channel.HandsOn taken o) ∧
    ∀ {u : Usage} {t i b : Nat} {h : Handle} {limit : Nat} {x : Executor} {task : Task}
      {steps : List Executor} {replies : List Reply}, Story u t i x steps replies →
      x.tasks[t]? = some task → task.program[i]? = some ⟨b, .call (.recvMany h limit)⟩ →
      IsAnswered (ReceivedOnce t b h limit) task steps replies := by
  constructor
  · intro ω c limit some
    obtain ⟨taken, ms, ran, each⟩ := Channel.receivesAsEach some limit
    obtain ⟨o, step, hands⟩ := Channel.handsOn ran each.answer
    exact ⟨taken, ms, o, ran, each, step, hands⟩
  · intro u t i b h limit x task steps replies story found begun
    exact (story.isAnswered found begun).mono fun _ => CarriedOut.receivedOnce

/-- Two batches are to be received from an empty channel. The first task is polled in vain, and
called for a message that is gone when it goes on, so that it waits behind the other. Of the three
messages that come then it takes the one that is left. -/
def batchesAwaited : List Step :=
  [.act 0 (.operate (.openChannel 3)), .spawn [⟨0, .call (.recvMany 0 2)⟩] false,
    .spawn [⟨0, .call (.recvMany 0 2)⟩] false, .run none, .poll ⟨0, 5⟩,
    .act 0 (.operate (.trySend 0 1)), .act 0 (.operate (.tryRecv 0)), .run none,
    .act 0 (.operate (.trySendMany 0 [4, 5, 6])), .run none]

/-- A channel that holds three messages, where two senders and a receiver wait. -/
def threeMessages : Channel Nat :=
  ⟨⟨0⟩, 3, ⟨[4, 5, 6]⟩, ⟨[⟨⟨1⟩, 7⟩, ⟨⟨2⟩, 8⟩]⟩, ⟨[⟨⟨3⟩, 9⟩]⟩⟩

theorem batch_received_once :
    (∃ taken ms o, threeMessages.tryRecvMany 2 = .ok taken ∧
      threeMessages.ReceivesAsEach 2 taken ms ∧ threeMessages.recvManyStep 2 = .ok o ∧
      Channel.HandsOn taken o ∧ o.woken = [7, 9]) ∧
    ∃ x steps replies, Story .full 0 0 x steps replies ∧
      replies = [.granted (.messages [6])] ∧ 6 < steps.length ∧
      ReceivedOnce 0 0 0 2 (.messages [6]) steps := by
  constructor
  · obtain ⟨taken, ms, o, ran, each, step, hands⟩ :=
      batch_receives_as_each.1 threeMessages 2 (by decide)
    refine ⟨taken, ms, o, ran, each, step, hands, ?_⟩
    cases ran
    exact (hands.left (by decide)).2
  · have obeys : (new false).Obeys .full batchesAwaited := by decide +kernel
    have story := (Story.new (u := .full) (t := 0) (i := 0) false).runScript obeys
    have program : (((new false).runScript batchesAwaited).1.tasks[0]?).map (·.program) =
        some [⟨0, .call (.recvMany 0 2)⟩] := by decide +kernel
    obtain ⟨task, found, program⟩ := Option.map_eq_some_iff.1 program
    have answered := batch_receives_as_each.2 story found (by rw [program]; rfl)
    have told : [] ++ (storyOfScript 0 0 (new false) batchesAwaited).2 =
        [.granted (.messages [6])] := Reply.eq_granted (by decide +kernel)
    exact ⟨_, _, _, story, told, by decide +kernel, answered.granted _ told⟩

end Executor

end MessageBus
