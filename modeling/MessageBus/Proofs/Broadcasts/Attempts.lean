import MessageBus.Proofs.WaitEntries.Errands

/-!
# All or nothing

A broadcast looks at all open channels before it puts its message into any. If one of them is in its
way, it leaves the registry as it is and wakes nobody; otherwise every open channel gets the message
and gives up the caller that has waited longest (`Channel.served`), and nothing else changes. The
two rules for when a broadcast may go ahead are instances of one statement
(`Registry.AllOrNothing`).
-/

namespace MessageBus

variable {ω α : Type}

namespace Channel

/-- A channel with one more message, after the receiver that has waited longest was called; with
`cascade` the sender that has waited longest as well. -/
def served (c : Channel ω) (m : Message) (cascade : Bool) : Channel ω :=
  { c with
    queue := ⟨c.queue.items ++ [m]⟩
    receivers := ⟨c.receivers.waiters.tail⟩
    senders := if cascade then ⟨c.senders.waiters.tail⟩ else c.senders }

/-- The waker of the receiver that has waited longest; with `cascade` also that of the sender. -/
def oldest (c : Channel ω) (cascade : Bool) : List ω :=
  (c.receivers.waiters.take 1 ++ if cascade then c.senders.waiters.take 1 else []).map (·.waker)

theorem wakeFirst_eq (c : Channel ω) (side : Side) : c.wakeFirst side =
    (c.setLine side ⟨(c.line side).waiters.tail⟩,
      ((c.line side).waiters.take 1).map (·.waker)) := by
  rw [wakeFirst, WaitLine.wakeFirst]
  rcases c.line side with ⟨_ | ⟨first, rest⟩⟩ <;> rfl

theorem commit_eq (c : Channel ω) (m : Message) (cascade : Bool) :
    c.commit m cascade = (c.served m cascade, c.oldest cascade) := by
  cases cascade <;> simp [commit, wakeFirst_eq, served, oldest, setLine, line, Fifo.push]

end Channel

namespace Registry

variable {r : Registry ω} {m : Message} {a : Address}

/-- A registry after every open channel was served. -/
def served (r : Registry ω) (m : Message) (cascade : Bool) : Registry ω :=
  { r with slots := r.slots.map (·.map (·.served m cascade)) }

/-- The callers that have waited longest at each open channel, by ascending handle. -/
def oldest (r : Registry ω) (cascade : Bool) : List ω := r.channels.flatMap (·.oldest cascade)

theorem commitAll_eq (r : Registry ω) (m : Message) (cascade : Bool) : r.commitAll m cascade =
    { answer := (), state := r.served m cascade, woken := r.oldest cascade } := by
  have state : (r.slots.map (·.map (·.commit m cascade))).map (·.map (·.1)) =
      r.slots.map (·.map (·.served m cascade)) := by
    rw [List.map_map]
    refine List.map_congr_left fun slot _ => ?_
    cases slot with
    | none => rfl
    | some c => exact congrArg (some ·.1) (c.commit_eq m cascade)
  have woken : ((r.slots.map (·.map (·.commit m cascade))).flatMap fun slot =>
      (slot.map (·.2)).getD []) = r.oldest cascade := by
    rw [oldest, channels]
    induction r.slots with
    | nil => rfl
    | cons slot slots ih =>
      cases slot with
      | none => exact ih
      | some c =>
        rw [List.map_cons, List.flatMap_cons, ih]
        exact congrArg (· ++ _) (congrArg (·.2) (c.commit_eq m cascade))
  rw [commitAll, woken, state, served]

/-- How a broadcast ends under the rule that every open channel has to admit it: if one is open and
all of them do, it commits and serves them all; otherwise nothing happens. -/
structure AllOrNothing (r : Registry ω) (m : Message) (admits : Channel ω → Bool) (cascade : Bool)
    (commits : Prop) (o : Outcome (Registry ω) ω α) : Prop where
  iff : commits ↔ r.channels ≠ [] ∧ ∀ c ∈ r.channels, admits c = true
  all : commits → o.state = r.served m cascade ∧ o.woken = r.oldest cascade
  nothing : ¬commits → o.state = r ∧ o.woken = []

theorem allOrNothing_tryBroadcast (r : Registry ω) (m : Message) :
    r.AllOrNothing m (·.hasSpace) false ((r.tryBroadcast m).answer = .ok ())
      (r.tryBroadcast m) := by
  rw [tryBroadcast]
  by_cases empty : r.channels = []
  · rw [if_pos (List.isEmpty_iff.2 empty)]
    refine ⟨iff_of_false ?_ fun open' => open'.1 empty, ?_, fun _ => ⟨rfl, rfl⟩⟩ <;>
      exact fun granted => by cases granted
  · rw [if_neg (mt List.isEmpty_iff.1 empty)]
    by_cases space : r.channels.all (·.hasSpace) = true
    · rw [if_pos space, commitAll_eq]
      exact ⟨iff_of_true rfl ⟨empty, List.all_eq_true.1 space⟩, fun _ => ⟨rfl, rfl⟩,
        fun refused => absurd rfl refused⟩
    · rw [if_neg space]
      refine ⟨iff_of_false ?_ fun open' => space (List.all_eq_true.2 open'.2), ?_,
        fun _ => ⟨rfl, rfl⟩⟩ <;> exact fun granted => by cases granted

theorem refused_tryBroadcast {e : BusError} (refused : (r.tryBroadcast m).answer = .error e) :
    e = if r.channels = [] then .noSuchChannel else .wouldBlock := by
  rw [tryBroadcast] at refused
  by_cases empty : r.channels = []
  · rw [if_pos (List.isEmpty_iff.2 empty)] at refused
    rw [if_pos empty]
    exact (Except.error.inj refused).symm
  · rw [if_neg (mt List.isEmpty_iff.1 empty)] at refused
    rw [if_neg empty]
    split at refused
    · cases refused
    · exact (Except.error.inj refused).symm

theorem accepts_of_blocker?_eq_none (none : r.blocker? = none) :
    ∀ c ∈ r.channels, c.acceptsBroadcast = true := by
  intro c member
  obtain ⟨h, found⟩ := mem_channels_iff.1 member
  exact blocker?_eq_none_iff.1 none ⟨h, c.id⟩ c (find?_of_channel? found)

theorem allOrNothing_attemptBroadcast (r : Registry ω) (m : Message) :
    r.AllOrNothing m (·.acceptsBroadcast) true ((r.attemptBroadcast m).answer = .ok none)
      (r.attemptBroadcast m) := by
  rw [attemptBroadcast]
  by_cases empty : r.channels = []
  · rw [if_pos (List.isEmpty_iff.2 empty)]
    refine ⟨iff_of_false ?_ fun open' => open'.1 empty, ?_, fun _ => ⟨rfl, rfl⟩⟩ <;>
      exact fun granted => by cases granted
  · rw [if_neg (mt List.isEmpty_iff.1 empty)]
    cases blocked : r.blocker? with
    | none =>
      rw [commitAll_eq]
      exact ⟨iff_of_true rfl ⟨empty, accepts_of_blocker?_eq_none blocked⟩, fun _ => ⟨rfl, rfl⟩,
        fun refused => absurd rfl refused⟩
    | some a =>
      obtain ⟨c, found, rejects⟩ := find?_of_blocker? blocked
      refine ⟨iff_of_false (fun granted => by cases granted) fun open' => ?_,
        (fun granted => by cases granted), fun _ => ⟨rfl, rfl⟩⟩
      cases rejects.symm.trans (open'.2 c (mem_channels_of_find? found))

/-- Whether the address is that of the open channel with the lowest handle that does not accept a
broadcast. -/
def FirstBlocker (r : Registry ω) (a : Address) : Prop :=
  (∃ c, r.find? a = some c ∧ c.acceptsBroadcast = false) ∧
    ∀ h < a.handle, ∀ c, r.channel? h = some c → c.acceptsBroadcast = true

theorem firstBlocker_of_blocker? (blocked : r.blocker? = some a) : r.FirstBlocker a := by
  refine ⟨find?_of_blocker? blocked, fun h before c found => ?_⟩
  obtain ⟨⟨h', c'⟩, first, rfl⟩ := Option.map_eq_some_iff.1 blocked
  obtain ⟨-, earlier, later, whole, others⟩ := List.find?_eq_some_iff_append.1 first
  have entry := mem_entries_iff.2 found
  have ascending := r.ascending_entries
  rw [whole] at entry ascending
  rcases List.mem_append.1 entry with early | late
  · simpa using others (h, c) early
  · -- The entries ascend, so those from the blocker on have handles that are not lower.
    rw [List.map_append, List.map_cons, List.pairwise_append, List.pairwise_cons] at ascending
    rcases List.mem_cons.1 late with same | late
    · cases same
      exact absurd before (Nat.lt_irrefl _)
    · have after := ascending.2.1.1 h (List.mem_map_of_mem late)
      exact absurd before (Nat.not_lt.2 (Nat.le_of_lt after))

/-- A blocked attempt names the first channel in its way, and one that is refused found no channel
open. -/
theorem answer_attemptBroadcast (r : Registry ω) (m : Message) :
    (r.attemptBroadcast m).answer = .ok none ∨
      (r.channels = [] ∧ (r.attemptBroadcast m).answer = .error .noSuchChannel) ∨
        ∃ a, (r.attemptBroadcast m).answer = .ok (some a) ∧ r.FirstBlocker a := by
  rw [attemptBroadcast]
  by_cases empty : r.channels = []
  · rw [if_pos (List.isEmpty_iff.2 empty)]
    exact .inr (.inl ⟨empty, rfl⟩)
  · rw [if_neg (mt List.isEmpty_iff.1 empty)]
    cases blocked : r.blocker? with
    | none => exact .inl rfl
    | some a => exact .inr (.inr ⟨a, rfl, firstBlocker_of_blocker? blocked⟩)

end Registry

end MessageBus
