import MessageBus.Proofs.Stand

/-!
# The accounts of wakeups

Three properties of the numbers of a channel. `Covered` says that receivers only wait while enough
of those that were called are still to come for the messages. `Spare` and `Heard` say that somebody
was called to take a free slot, and to let a broadcast look again.

Every step keeps all three. A sender that was called and waits again keeps the first; the second it
keeps if it waits at the same channel, and the third not even then.
-/

namespace MessageBus

namespace Channel

variable {ω : Type} {c c' : Channel ω} {q s r : Nat}

theorem hasSpace_iff (c : Channel ω) : c.hasSpace = true ↔ c.queue.size < c.capacity := by
  rw [hasSpace, decide_eq_true_iff]

theorem hasSpace_eq_false_iff (c : Channel ω) : c.hasSpace = false ↔ c.capacity ≤ c.queue.size := by
  rw [← Bool.not_eq_true, hasSpace_iff, Nat.not_lt]

theorem acceptsBroadcast_iff (c : Channel ω) : c.acceptsBroadcast = true ↔
    c.queue.size < c.capacity ∨ c.queue.size = 0 ∧ 0 < c.receivers.size := by
  rw [acceptsBroadcast, Bool.or_eq_true, hasSpace_iff, Bool.and_eq_true, Fifo.isEmpty_iff_size,
    Bool.not_eq_true', ← Bool.not_eq_true, WaitLine.isEmpty_iff_size, Nat.pos_iff_ne_zero]

/-- A sender does not matter to what a channel accepts. -/
theorem acceptsBroadcast_join_senders (c : Channel ω) (t : Ticket) (k : ω) :
    (c.join t k .senders).acceptsBroadcast = c.acceptsBroadcast := by
  obtain ⟨queue, capacity, -, receivers⟩ := c.sizes_join_senders t k
  rw [acceptsBroadcast, acceptsBroadcast, hasSpace, hasSpace, queue, capacity, receivers]

/-- A channel that accepts a broadcast without a free slot has no slots at all. -/
theorem capacity_eq_zero (full : c.hasSpace = false)
    (accepts : c.acceptsBroadcast = true) : c.capacity = 0 := by
  rw [hasSpace_eq_false_iff] at full
  rw [acceptsBroadcast_iff] at accepts
  omega

end Channel

/-- Whatever is blocked at a channel that accepts broadcasts is about that channel. -/
theorem Request.Blocked.address_of_accepts {ω : Type} {q : Request} {r : Registry ω} {a : Address}
    {c : Channel ω} (blocked : q.Blocked r a) (found : r.find? a = some c)
    (accepts : c.acceptsBroadcast = true) : q.address? = some a := by
  cases blocked with
  | broadcast blocker =>
    obtain ⟨d, there, rejects⟩ := Registry.find?_of_blocker? blocker
    cases found.symm.trans there
    cases rejects.symm.trans accepts
  | _ => rfl

namespace Stand

variable {ω : Type} {s s' : Stand ω} {moved : Prop}

/-- While receivers wait, at least as many were called and are still to come as there are
messages. -/
def Covered (s : Stand ω) : Prop :=
  s.channel.receivers.size = 0 ∨ s.channel.queue.size + s.channel.receivers.size ≤ s.receivers

/-- While senders wait and a slot is free, one was called and is still to come. -/
def Spare (s : Stand ω) : Prop :=
  s.channel.hasSpace = true → s.channel.senders.size = 0 ∨ s.channel.senders.size < s.senders

/-- While senders wait and a broadcast could go ahead, one was called and is still to come. -/
def Heard (s : Stand ω) : Prop :=
  s.channel.acceptsBroadcast = true → s.channel.senders.size < s.senders

/-! ### Receivers -/

theorem covered_handled {c c' : Channel ω} {s r : Nat} (handled : c.Handled c')
    (covered : Covered ⟨c, s, r⟩) : Covered ⟨c', s, r⟩ := by
  cases handled with
  | untouched => exact covered
  | committed _ =>
    have becomes := c.becomes_commit ‹_›
    simp only [Covered, becomes.messages, becomes.receivers] at covered ⊢
    omega
  | sentMany space =>
    have becomes := Channel.becomes_trySendMany space ‹_›
    simp only [Covered, becomes.messages, becomes.receivers] at covered ⊢
    omega
  | received some =>
    have becomes := (Channel.becomes_tryRecv some).2
    simp only [Covered, becomes.messages, becomes.receivers] at covered ⊢
    omega
  | @receivedMany limit o some ran =>
    obtain ⟨o', _, ran', -, becomes⟩ := Channel.becomes_tryRecvMany some limit
    cases ran.symm.trans ran'
    simp only [Covered, becomes.messages, becomes.receivers] at covered ⊢
    omega

theorem Step.covered (step : s.Step s') (covered : s.Covered) : s'.Covered := by
  cases step with
  | untouched => exact covered
  | handled handled => exact covered_handled handled covered
  | visited same =>
    simp only [Covered, same.messages, same.receivers] at covered ⊢
    exact covered
  | sent _ _ _ =>
    have becomes := Channel.becomes_commit_cascade ‹_› ‹_›
    simp only [Covered, becomes.messages, becomes.receivers] at covered ⊢
    omega
  | sentMany space _ _ =>
    have becomes := Channel.becomes_trySendMany space ‹_›
    simp only [Covered, becomes.messages, becomes.receivers] at covered ⊢
    omega
  | received some room rose =>
    have becomes := (Channel.becomes_tryRecv some).2
    simp only [Covered, becomes.messages, becomes.receivers] at covered ⊢
    omega
  | @receivedMany c limit o _ _ _ some ran room rose =>
    -- Of the messages that it leaves, one goes to the next receiver.
    obtain ⟨o', _, ran', -, becomes⟩ := Channel.becomes_recvManyStep some limit
    cases ran.symm.trans ran'
    simp only [Covered, becomes.messages, becomes.receivers] at covered ⊢
    split <;> omega
  | parkedSender _ => exact covered
  | @parkedReceiver c t k _ _ _ empty room rose =>
    obtain ⟨messages, -, -, receivers⟩ := c.sizes_join_receivers t k
    simp only [Covered, messages, receivers]
    omega
  | leftSenders left _ =>
    simp only [Covered, left.messages, left.receivers] at covered ⊢
    exact covered
  | leftReceivers left _ =>
    simp only [Covered, left.messages, left.receivers] at covered ⊢
    omega
  | passedSenders _ =>
    have becomes := Channel.becomes_wakeFirst_senders ‹_›
    simp only [Covered, becomes.messages, becomes.receivers] at covered ⊢
    exact covered
  | passedReceivers _ =>
    have becomes := Channel.becomes_wakeFirst_receivers ‹_›
    simp only [Covered, becomes.messages, becomes.receivers] at covered ⊢
    omega

theorem Lapse.covered (lapse : s.Lapse moved s') (covered : s.Covered) : s'.Covered := by
  cases lapse with
  | here _ _ _ => exact covered
  | elsewhere _ _ => exact covered

/-! ### Senders -/

theorem spare_handled {c c' : Channel ω} {s r : Nat} (handled : c.Handled c')
    (room : c.senders.size ≤ s) (spare : Spare ⟨c, s, r⟩) : Spare ⟨c', s, r⟩ := by
  simp only [Spare, Channel.hasSpace_iff] at spare ⊢
  cases handled with
  | untouched => exact spare
  | committed space =>
    have becomes := c.becomes_commit ‹_›
    simp only [becomes.messages, becomes.senders, becomes.capacity]
    omega
  | sentMany space =>
    have becomes := Channel.becomes_trySendMany space ‹_›
    simp only [becomes.senders]
    omega
  | received some =>
    have becomes := (Channel.becomes_tryRecv some).2
    simp only [becomes.senders]
    omega
  | @receivedMany limit o some ran =>
    obtain ⟨o', _, ran', -, becomes⟩ := Channel.becomes_tryRecvMany some limit
    cases ran.symm.trans ran'
    simp only [becomes.senders]
    omega

theorem Step.spare (step : s.Step s') (sound : s.Sound) (spare : s.Spare) : s'.Spare := by
  have room := sound.1
  cases step with
  | untouched => exact spare
  | handled handled => exact spare_handled handled room spare
  | visited same =>
    simp only [Spare, Channel.hasSpace_iff, same.messages, same.capacity, same.senders] at spare ⊢
    exact spare
  | sent _ room _ =>
    intro _
    simp only [(Channel.becomes_commit_cascade ‹_› ‹_›).senders]
    omega
  | sentMany space room _ =>
    intro _
    simp only [(Channel.becomes_trySendMany space ‹_›).senders]
    omega
  | received some _ _ =>
    intro _
    simp only [(Channel.becomes_tryRecv some).2.senders] at room ⊢
    omega
  | @receivedMany c limit o _ _ _ some ran _ _ =>
    obtain ⟨o', _, ran', -, becomes⟩ := Channel.becomes_recvManyStep some limit
    cases ran.symm.trans ran'
    intro _
    simp only [becomes.senders] at room ⊢
    omega
  | @parkedSender c t k _ _ full =>
    intro space
    cases full.symm.trans space
  | @parkedReceiver c t k _ _ _ empty _ _ =>
    obtain ⟨messages, capacity, senders, -⟩ := c.sizes_join_receivers t k
    simp only [Spare, Channel.hasSpace_iff, messages, capacity, senders] at spare ⊢
    split <;> omega
  | leftSenders left _ =>
    simp only [Spare, Channel.hasSpace_iff, left.messages, left.capacity, left.senders] at spare ⊢
    omega
  | leftReceivers left _ =>
    simp only [Spare, Channel.hasSpace_iff, left.messages, left.capacity, left.senders] at spare ⊢
    exact spare
  | passedSenders room =>
    intro _
    simp only [(Channel.becomes_wakeFirst_senders ‹_›).senders]
    omega
  | passedReceivers _ => exact spare

/-- A sender that waits again at the same channel found it without a free slot. -/
theorem Lapse.spare (lapse : s.Lapse moved s') (stays : ¬moved) : s'.Spare := by
  cases lapse with
  | here _ full _ =>
    intro space
    cases full.symm.trans space
  | elsewhere other _ => exact absurd other stays

/-! ### Broadcasts -/

theorem heard_handled {c c' : Channel ω} {s r : Nat} (handled : c.Handled c')
    (room : c.senders.size ≤ s) (waits : 0 < c.senders.size) (heard : Heard ⟨c, s, r⟩) :
    Heard ⟨c', s, r⟩ := by
  simp only [Heard, Channel.acceptsBroadcast_iff] at heard ⊢
  cases handled with
  | untouched => exact heard
  | committed space =>
    rw [Channel.hasSpace_iff] at space
    simp only [(c.becomes_commit ‹_›).senders]
    omega
  | sentMany space =>
    simp only [(Channel.becomes_trySendMany space ‹_›).senders]
    omega
  | received some =>
    simp only [(Channel.becomes_tryRecv some).2.senders]
    omega
  | @receivedMany limit o some ran =>
    obtain ⟨o', _, ran', -, becomes⟩ := Channel.becomes_tryRecvMany some limit
    cases ran.symm.trans ran'
    simp only [becomes.senders]
    omega

/-- As long as senders wait before and after a step, somebody is called whenever a broadcast could
go ahead. -/
theorem Step.heard (step : s.Step s') (sound : s.Sound) (before : 0 < s.channel.senders.size)
    (after : 0 < s'.channel.senders.size) (heard : s.Heard) : s'.Heard := by
  have room := sound.1
  cases step with
  | untouched => exact heard
  | handled handled => exact heard_handled handled room before heard
  | visited same =>
    simp only [Heard, Channel.acceptsBroadcast_iff, same.messages, same.capacity, same.senders,
      same.receivers] at heard ⊢
    exact heard
  | sent _ room _ =>
    intro _
    simp only [(Channel.becomes_commit_cascade ‹_› ‹_›).senders] at before ⊢
    omega
  | sentMany space room _ =>
    intro _
    simp only [(Channel.becomes_trySendMany space ‹_›).senders] at before ⊢
    omega
  | received some _ _ =>
    intro _
    simp only [(Channel.becomes_tryRecv some).2.senders] at room before ⊢
    omega
  | @receivedMany c limit o _ _ _ some ran _ _ =>
    obtain ⟨o', _, ran', -, becomes⟩ := Channel.becomes_recvManyStep some limit
    cases ran.symm.trans ran'
    intro _
    simp only [becomes.senders] at room before ⊢
    omega
  | @parkedSender c t k _ _ full =>
    obtain ⟨queue, capacity, senders, receivers⟩ := c.sizes_join_senders t k
    simp only [Heard, Channel.acceptsBroadcast_iff, queue, capacity, senders, receivers] at heard ⊢
    omega
  | @parkedReceiver c t k _ _ _ empty _ _ =>
    -- If the channel is full all senders are called, and otherwise it accepted broadcasts before.
    obtain ⟨-, -, senders, -⟩ := c.sizes_join_receivers t k
    by_cases opens : c.queue.size = 0 ∧ c.hasSpace = false
    · rw [if_pos opens] at senders
      exact absurd after (senders ▸ Nat.lt_irrefl 0)
    · rw [if_neg opens] at senders
      have space : c.hasSpace = true := Bool.not_eq_false _ ▸ fun full => opens ⟨empty, full⟩
      intro _
      simp only [senders]
      exact heard (by simp only [Channel.acceptsBroadcast, space, Bool.true_or])
  | leftSenders left _ =>
    simp only [Heard, Channel.acceptsBroadcast_iff, left.messages, left.capacity, left.senders,
      left.receivers] at heard ⊢
    omega
  | leftReceivers left _ =>
    simp only [Heard, Channel.acceptsBroadcast_iff, left.messages, left.capacity, left.senders,
      left.receivers] at heard ⊢
    omega
  | passedSenders room =>
    intro _
    simp only [(Channel.becomes_wakeFirst_senders ‹_›).senders] at before ⊢
    omega
  | passedReceivers _ =>
    have becomes := Channel.becomes_wakeFirst_receivers ‹_›
    simp only [Heard, Channel.acceptsBroadcast_iff, becomes.messages, becomes.capacity,
      becomes.senders, becomes.receivers] at heard ⊢
    omega

end Stand

end MessageBus
