import MessageBus.Proofs.Errands
import MessageBus.Proofs.LeavingOut
import MessageBus.Proofs.Likeness

/-!
# Errands on a bus without one of its waiters

An errand on a bus without a waiter comes to what it comes to with it, and leaves the bus without
it, as long as the waiter is not woken and nobody counts those who wait. The tickets that are given
out are those that follow on what was given out without it.
-/

namespace MessageBus

variable {ω : Type}

/-- A caller that goes to the end of a line wakes the same others there. -/
theorem Channel.join_leavingOut {c : Channel ω} {s t : Ticket} {k : ω} {side : Side}
    (other : s ≠ t) (keeps : c.Keeps (c.join s k side) t) :
    (c.leavingOut t).join (s.leavingOut t) k side = (c.join s k side).leavingOut t ∧
      (c.leavingOut t).joinCalls (s.leavingOut t) k side = c.joinCalls s k side := by
  have longer (l : WaitLine ω) :
      (⟨(l.leavingOut t).waiters ++ [⟨s.leavingOut t, k⟩]⟩ : WaitLine ω) =
        WaitLine.leavingOut ⟨l.waiters ++ [⟨s, k⟩]⟩ t := by
    simp [WaitLine.leavingOut, Waiter.leavingOut, other]
  cases side with
  | senders =>
    refine ⟨?_, rfl⟩
    show ({ c.leavingOut t with senders := ⟨(c.senders.leavingOut t).waiters ++ _⟩ } :
      Channel ω) = _
    rw [longer]
    rfl
  | receivers =>
    let d : Channel ω := { c with receivers := ⟨c.receivers.waiters ++ [⟨s, k⟩]⟩ }
    have kept : d.Keeps d.receiverParked.1 t := by
      intro side inside
      cases side with
      | senders => exact keeps .senders inside
      | receivers =>
        rw [receiverParked]
        split <;> exact inside
    have parked := receiverParked_leavingOut kept
    have same : ({ c.leavingOut t with
        receivers := ⟨(c.receivers.leavingOut t).waiters ++ [⟨s.leavingOut t, k⟩]⟩ } :
        Channel ω) = d.leavingOut t := by
      rw [longer]
      rfl
    refine ⟨?_, ?_⟩
    · exact (congrArg (·.receiverParked.1) same).trans (congrArg (·.1) parked)
    · exact (congrArg (·.receiverParked.2) same).trans (congrArg (·.2) parked)

namespace Registry

variable {α : Type} {r r' : Registry ω} {t : Ticket} {h : Handle} {a : Address} {c c' : Channel ω}
  {k : ω} {p : Place}

/-- Whoever has the ticket is not woken. -/
def Keeps (r r' : Registry ω) (t : Ticket) : Prop :=
  ∀ h c, r.channel? h = some c → ∀ side, t ∈ c.tickets side →
    ∃ c', r'.channel? h = some c' ∧ t ∈ c'.tickets side

theorem Keeps.refl (r : Registry ω) (t : Ticket) : r.Keeps r t :=
  fun _ c found _ inside => ⟨c, found, inside⟩

/-- A ticket that was given out may be left out of a bus without anybody seeing it. -/
structure Hides (r : Registry ω) (t : Ticket) : Prop where
  channel : ∀ h c, r.channel? h = some c → c.Hides t
  issued : t.number < r.nextTicket

/-! ### Looking -/

@[simp] theorem channel?_leavingOut (r : Registry ω) (t : Ticket) (h : Handle) :
    (r.leavingOut t).channel? h = (r.channel? h).map (·.leavingOut t) := by
  simp only [channel?, leavingOut, List.getElem?_map]
  rcases r.slots[h]? with _ | _ | c <;> rfl

@[simp] theorem find?_leavingOut (r : Registry ω) (t : Ticket) (a : Address) :
    (r.leavingOut t).find? a = (r.find? a).map (·.leavingOut t) := by
  rw [find?, channel?_leavingOut, find?]
  cases r.channel? a.handle with
  | none => rfl
  | some c =>
    rw [Option.map_some, Option.filter_some, Option.filter_some]
    show (if decide (c.id = a.id) = true then _ else _) = _
    split <;> rfl

theorem inspect_leavingOut (r : Registry ω) (t : Ticket) (h : Handle) {look : Channel ω → α}
    (same : ∀ c, look (c.leavingOut t) = look c) :
    (r.leavingOut t).inspect h look = r.inspect h look := by
  rw [inspect, channel?_leavingOut, inspect]
  cases r.channel? h with
  | none => rfl
  | some c => exact congrArg Except.ok (same c)

theorem resolve_leavingOut (r : Registry ω) (t : Ticket) (h : Handle) :
    (r.leavingOut t).resolve h = r.resolve h := r.inspect_leavingOut t h fun _ => rfl

theorem channelCount_leavingOut (r : Registry ω) (t : Ticket) :
    (r.leavingOut t).channelCount = r.channelCount := by
  show (r.slots.map _).countP _ = r.slots.countP _
  rw [List.countP_map]
  exact List.countP_congr fun slot _ => by cases slot <;> rfl

theorem summary_leavingOut (r : Registry ω) (t : Ticket) (inUse : Bool) :
    (r.leavingOut t).summary inUse = r.summary inUse := by
  have length : (r.leavingOut t).slots.length = r.slots.length := List.length_map _
  rw [summary, summary, channelCount_leavingOut, length]

theorem put_leavingOut (r : Registry ω) (t : Ticket) (h : Handle) (c : Channel ω) :
    (r.leavingOut t).put h (c.leavingOut t) = (r.put h c).leavingOut t := by
  simp [put, leavingOut, List.map_set]

/-- A waiter that is kept on a bus is kept by the channel that changed. -/
theorem Keeps.channel (keeps : r.Keeps (r.put h c') t) (found : r.channel? h = some c) :
    c.Keeps c' t := by
  intro side inside
  obtain ⟨d, there, inside'⟩ := keeps h c found side inside
  rw [channel?_put (Option.isSome_iff_exists.2 ⟨c, found⟩), if_pos rfl] at there
  cases there
  exact inside'

/-! ### Acting on one channel -/

section Acting

variable {act act' : Channel ω → Except Fault (Outcome (Channel ω) ω (Except BusError α))}
  {o : Outcome (Registry ω) ω (Except BusError α)}

/-- What is done to a channel is done without the waiter as well. -/
theorem act_leavingOut (hides : r.Hides t) (found : r.channel? h = some c)
    (ran : (act c).map (·.within (r.put h)) = .ok o) (keeps : r.Keeps o.state t)
    (same : ∀ (c : Channel ω) p, c.Hides t → act c = .ok p → c.Keeps p.state t →
      act' (c.leavingOut t) = .ok (p.within (·.leavingOut t))) :
    (act' (c.leavingOut t)).map (·.within ((r.leavingOut t).put h)) =
      .ok (o.within (·.leavingOut t)) := by
  cases done : act c with
  | error fault =>
    rw [done] at ran
    cases ran
  | ok p =>
    rw [done] at ran
    cases ran
    have done' := same c p (hides.channel h c found) done (keeps.channel found)
    simp only [done', Except.map]
    refine congrArg Except.ok ?_
    simp only [Outcome.within, put_leavingOut]

theorem onChannel_leavingOut (hides : r.Hides t) (ran : r.onChannel h act = .ok o)
    (keeps : r.Keeps o.state t)
    (same : ∀ (c : Channel ω) p, c.Hides t → act c = .ok p → c.Keeps p.state t →
      act' (c.leavingOut t) = .ok (p.within (·.leavingOut t))) :
    (r.leavingOut t).onChannel h act' = .ok (o.within (·.leavingOut t)) := by
  rw [onChannel] at ran
  rw [onChannel, channel?_leavingOut]
  cases found : r.channel? h with
  | none =>
    rw [found] at ran
    cases ran
    rfl
  | some c =>
    rw [found] at ran
    exact act_leavingOut hides found ran keeps same

theorem onAddress_leavingOut (hides : r.Hides t) (ran : r.onAddress a act = .ok o)
    (keeps : r.Keeps o.state t)
    (same : ∀ (c : Channel ω) p, c.Hides t → act c = .ok p → c.Keeps p.state t →
      act' (c.leavingOut t) = .ok (p.within (·.leavingOut t))) :
    (r.leavingOut t).onAddress a act' = .ok (o.within (·.leavingOut t)) := by
  rw [onAddress] at ran
  rw [onAddress, find?_leavingOut]
  cases found : r.find? a with
  | none =>
    rw [found] at ran
    cases ran
    rfl
  | some c =>
    rw [found] at ran
    exact act_leavingOut hides (channel?_of_find? found).1 ran keeps same

end Acting

/-! ### Opening and closing -/

theorem openChannel_leavingOut (r : Registry ω) (t : Ticket) (bound : Nat) :
    (r.leavingOut t).openChannel bound = (r.openChannel bound).within (·.leavingOut t) := by
  have free : (r.leavingOut t).slots.findIdx (·.isNone) = r.slots.findIdx (·.isNone) := by
    show (r.slots.map _).findIdx _ = _
    rw [List.findIdx_map]
    congr 1
    funext slot
    cases slot <;> rfl
  have length : (r.leavingOut t).slots.length = r.slots.length := List.length_map _
  rw [openChannel, openChannel]
  simp only [free, length]
  refine congrArg (fun slots => ({
    answer := r.slots.findIdx (·.isNone)
    state := { slots, nextId := r.nextId + 1, nextTicket := r.nextTicket - 1 }
    notes := [.opened (r.slots.findIdx (·.isNone)) bound] } :
      Outcome (Registry ω) ω Handle)) ?_
  show (if _ then (r.slots.map _).set _ _ else r.slots.map _ ++ _) = List.map _ (if _ then _ else _)
  split
  · rw [List.map_set]
    rfl
  · rw [List.map_append]
    rfl

theorem close_leavingOut (keeps : r.Keeps (r.close h).state t) :
    (r.leavingOut t).close h = (r.close h).within (·.leavingOut t) := by
  rw [close, close, channel?_leavingOut]
  cases found : r.channel? h with
  | none => rfl
  | some c =>
    have out (side : Side) : t ∉ c.tickets side := by
      intro inside
      obtain ⟨c', there, -⟩ := keeps h c found side inside
      rw [channel?_close, if_pos rfl] at there
      cases there
    simp only [Option.map_some, Channel.close_leavingOut out]
    refine congrArg (fun slots => ({
      answer := ()
      state := { slots, nextId := r.nextId, nextTicket := r.nextTicket - 1 }
      woken := c.close
      notes := [.closed h c.close.length c.size] } : Outcome (Registry ω) ω Unit)) ?_
    show (r.slots.map _).set h none = (r.slots.set h none).map _
    rw [List.map_set]
    rfl

theorem channels_leavingOut (r : Registry ω) (t : Ticket) :
    (r.leavingOut t).channels = r.channels.map (·.leavingOut t) := by
  show (r.slots.map _).filterMap id = (r.slots.filterMap id).map _
  rw [List.filterMap_map, List.map_filterMap]
  rfl

theorem delete_leavingOut (keeps : r.Keeps r.delete.state t) :
    (r.leavingOut t).delete = r.delete.within (·.leavingOut t) := by
  have out (c : Channel ω) (member : c ∈ r.channels) (side : Side) : t ∉ c.tickets side := by
    intro inside
    obtain ⟨h, found⟩ := mem_channels_iff.1 member
    obtain ⟨c', there, -⟩ := keeps h c found side inside
    cases there
  have woken : (r.leavingOut t).channels.flatMap (·.close) = r.channels.flatMap (·.close) := by
    rw [channels_leavingOut, List.flatMap_map]
    exact List.flatMap_congr fun c member => Channel.close_leavingOut (out c member)
  have length : (r.leavingOut t).channels.length = r.channels.length := by
    rw [channels_leavingOut, List.length_map]
  rw [delete, delete]
  simp only [woken, length]
  rfl

/-! ### Broadcasts -/

theorem commitAll_leavingOut {m : Message} {cascade : Bool} (hides : r.Hides t)
    (keeps : r.Keeps (r.commitAll m cascade).state t) :
    (r.leavingOut t).commitAll m cascade = (r.commitAll m cascade).within (·.leavingOut t) := by
  have one (slot : Option (Channel ω)) (member : slot ∈ r.slots) :
      (slot.map (·.leavingOut t)).map (·.commit m cascade) =
        (slot.map (·.commit m cascade)).map fun sent => (sent.1.leavingOut t, sent.2) := by
    cases slot with
    | none => rfl
    | some c =>
      obtain ⟨h, there⟩ := List.mem_iff_getElem?.1 member
      have found := channel?_eq_some_iff.2 there
      refine congrArg some
        (Channel.commit_leavingOut (hides.channel h c found) fun side inside => ?_)
      obtain ⟨c', there', inside'⟩ := keeps h c found side inside
      have slot : (r.commitAll m cascade).state.channel? h = some (c.commit m cascade).1 := by
        rw [channel?_eq_some_iff]
        simp [commitAll, there]
      cases slot.symm.trans there'
      exact inside'
  have sent : (r.leavingOut t).slots.map (·.map (·.commit m cascade)) =
      (r.slots.map (·.map (·.commit m cascade))).map
        (·.map fun sent => (sent.1.leavingOut t, sent.2)) := by
    show (r.slots.map _).map _ = _
    rw [List.map_map, List.map_map]
    exact List.map_congr_left one
  have slots : ((r.leavingOut t).slots.map (·.map (·.commit m cascade))).map (·.map (·.1)) =
      ((r.slots.map (·.map (·.commit m cascade))).map (·.map (·.1))).map
        (·.map (·.leavingOut t)) := by
    rw [sent]
    simp only [List.map_map]
    refine List.map_congr_left fun slot _ => ?_
    cases slot <;> rfl
  have woken : ((r.leavingOut t).slots.map (·.map (·.commit m cascade))).flatMap
        (fun slot => (slot.map (·.2)).getD []) =
      (r.slots.map (·.map (·.commit m cascade))).flatMap
        fun slot => (slot.map (·.2)).getD [] := by
    rw [sent, List.flatMap_map]
    refine List.flatMap_congr fun slot _ => ?_
    cases slot <;> rfl
  rw [commitAll, commitAll]
  simp only [slots, woken]
  rfl

theorem isEmpty_channels_leavingOut (r : Registry ω) (t : Ticket) :
    (r.leavingOut t).channels.isEmpty = r.channels.isEmpty := by
  rw [channels_leavingOut, List.isEmpty_map]

theorem tryBroadcast_leavingOut {m : Message} (hides : r.Hides t)
    (keeps : r.Keeps (r.tryBroadcast m).state t) :
    (r.leavingOut t).tryBroadcast m = (r.tryBroadcast m).within (·.leavingOut t) := by
  have spaces : (r.leavingOut t).channels.all (·.hasSpace) = r.channels.all (·.hasSpace) := by
    rw [channels_leavingOut, List.all_map]
    rfl
  rw [tryBroadcast] at keeps
  rw [tryBroadcast, isEmpty_channels_leavingOut, spaces, tryBroadcast]
  split
  · rfl
  · rename_i some
    rw [if_neg some] at keeps
    split
    · rename_i space
      rw [if_pos space] at keeps
      rw [commitAll_leavingOut hides keeps]
      rfl
    · rfl

/-- A hidden waiter is in nobody's way. -/
theorem blocker?_leavingOut (hides : r.Hides t) : (r.leavingOut t).blocker? = r.blocker? := by
  have entries : (r.leavingOut t).entries =
      r.entries.map fun entry => (entry.1, entry.2.leavingOut t) := by
    show ((r.slots.map _).zipIdx).filterMap _ = List.map _ (r.slots.zipIdx.filterMap _)
    rw [List.zipIdx_map, List.filterMap_map, List.map_filterMap]
    refine congrArg (List.filterMap · _) (funext fun (slot, h) => ?_)
    cases slot <;> rfl
  have accepts : r.entries.filter (fun entry => !(entry.2.leavingOut t).acceptsBroadcast) =
      r.entries.filter fun entry => !entry.2.acceptsBroadcast := by
    refine List.filter_congr fun (h, c) entry => ?_
    rw [Channel.acceptsBroadcast_leavingOut (hides.channel h c (mem_entries_iff.1 entry))]
  rw [blocker?, blocker?, entries, List.find?_map, Option.map_map]
  show Option.map _ (r.entries.find? fun entry => !(entry.2.leavingOut t).acceptsBroadcast) = _
  rw [← List.head?_filter, accepts, List.head?_filter]
  rfl

theorem attemptBroadcast_leavingOut {m : Message} (hides : r.Hides t)
    (keeps : r.Keeps (r.attemptBroadcast m).state t) :
    (r.leavingOut t).attemptBroadcast m = (r.attemptBroadcast m).within (·.leavingOut t) := by
  rw [attemptBroadcast] at keeps
  rw [attemptBroadcast, isEmpty_channels_leavingOut, blocker?_leavingOut hides, attemptBroadcast]
  split
  · rfl
  · rename_i some
    rw [if_neg some] at keeps
    cases blocker : r.blocker? with
    | some a => rfl
    | none =>
      rw [blocker] at keeps
      simp only [commitAll_leavingOut hides keeps]
      rfl

/-! ### Waiting -/

/-- The ticket that is given out next is the one before it. -/
theorem leavingOut_nextTicket (hides : r.Hides t) :
    (⟨r.nextTicket⟩ : Ticket).leavingOut t = ⟨(r.leavingOut t).nextTicket⟩ :=
  if_pos hides.issued

theorem leavingOut_issue (hides : r.Hides t) :
    (r.leavingOut t).issue = r.issue.leavingOut t := by
  have issued := hides.issued
  have next : r.nextTicket - 1 + 1 = r.nextTicket + 1 - 1 := by omega
  show ({ slots := _, nextId := _, nextTicket := r.nextTicket - 1 + 1 } : Registry ω) = _
  rw [next]
  rfl

theorem exists_park {side : Side} (found : r.find? a = some c)
    (fresh : (c.line side).contains ⟨r.nextTicket⟩ = false) : ∃ o, r.park a side k = .ok o := by
  have found' : r.issue.find? a = some c := found
  rw [issue] at found'
  simp only [park, found', WaitLine.push, fresh, Bool.false_eq_true, if_false]
  exact ⟨_, rfl⟩

theorem park_leavingOut {side : Side} {o : Outcome (Registry ω) ω (Option Place)}
    (hides : r.Hides t) (ran : r.park a side k = .ok o) (keeps : r.Keeps o.state t) :
    ∃ o', (r.leavingOut t).park a side k = .ok o' ∧
      o.Alike (fun r r' => r' = r.leavingOut t)
        (Option.Rel fun p p' => p' = p.leavingOut t ∧ p.ticket ≠ t) o' := by
  have new : (⟨r.nextTicket⟩ : Ticket) ≠ t := by
    rintro rfl
    exact Nat.lt_irrefl _ hides.issued
  have next := leavingOut_nextTicket hides
  cases found : r.find? a with
  | none =>
    have found' : (r.leavingOut t).find? a = none := by rw [find?_leavingOut, found]; rfl
    rw [park_of_gone found] at ran
    cases ran
    exact ⟨_, park_of_gone found' side k, .none, leavingOut_issue hides, rfl⟩
  | some c =>
    have found' : (r.leavingOut t).find? a = some (c.leavingOut t) := by
      rw [find?_leavingOut, found]; rfl
    have joins := joins_of_park found ran
    have fresh : ((c.leavingOut t).line side).contains ⟨(r.leavingOut t).nextTicket⟩ = false := by
      rw [Channel.line_leavingOut, ← next, WaitLine.contains_leavingOut new]
      exact joins.fresh
    obtain ⟨o', ran'⟩ := exists_park (k := k) found' fresh
    have joins' := joins_of_park found' ran'
    rw [joins.state] at keeps
    obtain ⟨joined, calls⟩ := Channel.join_leavingOut new
      (Keeps.channel (r := r.issue) keeps (channel?_of_find? found).1)
    refine ⟨o', ran', ?_, ?_, ?_⟩
    · rw [joins.answer, joins'.answer, ← next]
      exact .some ⟨rfl, new⟩
    · rw [joins.state, joins'.state, ← next, joined, leavingOut_issue hides, put_leavingOut]
    · rw [joins.woken, joins'.woken, ← next, calls]

/-- Somebody else who looks at a place finds it as it is. -/
theorem revisit_leavingOut (other : p.ticket ≠ t) :
    (r.revisit p k).Alike (fun r r' => r' = r.leavingOut t) (· = ·)
      ((r.leavingOut t).revisit (p.leavingOut t) k) := by
  have found' : (r.leavingOut t).find? (p.leavingOut t).address =
      (r.find? p.address).map (·.leavingOut t) := r.find?_leavingOut t p.address
  rw [revisit, revisit, found']
  cases r.find? p.address with
  | none => exact ⟨rfl, rfl, rfl⟩
  | some c =>
    have refreshed : ((c.leavingOut t).line (p.leavingOut t).side).refresh?
        (p.leavingOut t).ticket k = ((c.line p.side).refresh? p.ticket k).map (·.leavingOut t) := by
      rw [Channel.line_leavingOut]
      exact WaitLine.refresh?_leavingOut other
    simp only [Option.map_some, refreshed]
    cases (c.line p.side).refresh? p.ticket k with
    | none => exact ⟨rfl, rfl, rfl⟩
    | some line =>
      refine ⟨rfl, ?_, rfl⟩
      show (r.leavingOut t).put p.address.handle ((c.leavingOut t).setLine p.side _) = _
      rw [Channel.setLine_leavingOut, put_leavingOut]

/-- Somebody else who gives up a place passes the same wakeup on. -/
theorem abandon_leavingOut (other : p.ticket ≠ t) (hides : r.Hides t)
    (keeps : r.Keeps (r.abandon p).state t) :
    (r.abandon p).Alike (fun r r' => r' = r.leavingOut t) (· = ·)
      ((r.leavingOut t).abandon (p.leavingOut t)) := by
  have found' : (r.leavingOut t).find? (p.leavingOut t).address =
      (r.find? p.address).map (·.leavingOut t) := r.find?_leavingOut t p.address
  rw [abandon] at keeps
  rw [abandon, abandon, found']
  cases found : r.find? p.address with
  | none => exact ⟨rfl, rfl, rfl⟩
  | some c =>
    have there := (channel?_of_find? found).1
    have removed : ((c.leavingOut t).line (p.leavingOut t).side).remove?
        (p.leavingOut t).ticket = ((c.line p.side).remove? p.ticket).map (·.leavingOut t) := by
      rw [Channel.line_leavingOut]
      exact WaitLine.remove?_leavingOut other
    simp only [found] at keeps
    simp only [Option.map_some, removed]
    cases gone : (c.line p.side).remove? p.ticket with
    | some line =>
      refine ⟨trivial, ?_, rfl⟩
      show (r.leavingOut t).put p.address.handle ((c.leavingOut t).setLine p.side _) = _
      rw [Channel.setLine_leavingOut, put_leavingOut]
    | none =>
      simp only [gone] at keeps
      have woken : (c.leavingOut t).wakeFirst (p.leavingOut t).side = _ :=
        Channel.wakeFirst_leavingOut (hides.channel _ c there) (keeps.channel there)
      refine ⟨trivial, ?_, ?_⟩
      · show (r.leavingOut t).put p.address.handle ((c.leavingOut t).wakeFirst _).1 = _
        rw [woken, put_leavingOut]
        rfl
      · show ((c.leavingOut t).wakeFirst _).2 = _
        rw [woken]
        rfl

end Registry

/-! ### Operations -/

/-- What differs only in the waiter that is left out is alike. -/
theorem Outcome.alike_within {σ α β : Type} {o : Outcome σ ω α} {f : σ → σ} {value : α → β}
    {answers : β → β → Prop} (same : answers (value o.answer) (value o.answer)) :
    (o.map value).Alike (fun s s' => s' = f s) answers ((o.within f).map value) :=
  ⟨same, rfl, rfl⟩

namespace Operation

variable {α : Type} {r : Registry ω} {t : Ticket} {op : Operation}

theorem answer_leavingOut {value : α → Value} {h : Handle} {differs : Prop}
    {act act' : Channel ω → Except Fault (Outcome (Channel ω) ω (Except BusError α))}
    {o : Outcome (Registry ω) ω Reply} (hides : r.Hides t)
    (ran : apply.answer value (r.onChannel h act) = .ok o) (keeps : r.Keeps o.state t)
    (same : ∀ (c : Channel ω) p, c.Hides t → act c = .ok p → c.Keeps p.state t →
      act' (c.leavingOut t) = .ok (p.within (·.leavingOut t))) :
    ∃ o', apply.answer value ((r.leavingOut t).onChannel h act') = .ok o' ∧
      o.Alike (fun r r' => r' = r.leavingOut t) (Reply.Alike differs) o' := by
  obtain ⟨p, done, rfl⟩ := Outcome.of_map_eq_ok ran
  rw [Registry.onChannel_leavingOut hides done keeps same]
  exact ⟨_, rfl, Outcome.alike_within (.same _)⟩

/-- An operation does and answers the same without a waiter that is not woken, unless it counts
those who wait while the waiter is there. -/
theorem apply_leavingOut {o : Outcome (Registry ω) ω Reply} {waits : Prop} (hides : r.Hides t)
    (gone : ¬waits → ∀ h c, r.channel? h = some c → ∀ side, t ∉ c.tickets side)
    (ran : op.apply r = .ok o) (keeps : r.Keeps o.state t) :
    ∃ o', op.apply (r.leavingOut t) = .ok o' ∧
      o.Alike (fun r r' => r' = r.leavingOut t) (Reply.Alike (op.sight.Shows waits)) o' := by
  have looks {reply reply' : Reply} (same : reply.Alike (op.sight.Shows waits) reply')
      (ran : apply.look r reply = .ok o) : ∃ o', apply.look (r.leavingOut t) reply' = .ok o' ∧
        o.Alike (fun r r' => r' = r.leavingOut t) (Reply.Alike (op.sight.Shows waits)) o' := by
    cases ran
    exact ⟨_, rfl, same, rfl, rfl⟩
  have inspects {α : Type} {h : Handle} {value : α → Value} {look : Channel ω → α}
      (same : ∀ c, look (c.leavingOut t) = look c)
      (ran : apply.look r (.ofExcept value (r.inspect h look)) = .ok o) :
      ∃ o', apply.look (r.leavingOut t)
          (.ofExcept value ((r.leavingOut t).inspect h look)) = .ok o' ∧
        o.Alike (fun r r' => r' = r.leavingOut t) (Reply.Alike (op.sight.Shows waits)) o' := by
    rw [Registry.inspect_leavingOut r t h same]
    exact looks (.same _) ran
  cases op with
  | openChannel bound =>
    cases ran
    exact ⟨_, congrArg (fun o => Except.ok (Outcome.map _ o)) (r.openChannel_leavingOut t bound),
      Outcome.alike_within (.same _)⟩
  | close h =>
    cases ran
    exact ⟨_, congrArg (fun o => Except.ok (Outcome.map _ o)) (Registry.close_leavingOut keeps),
      Outcome.alike_within (.same _)⟩
  | delete =>
    cases ran
    exact ⟨_, congrArg (fun o => Except.ok (Outcome.map _ o)) (Registry.delete_leavingOut keeps),
      Outcome.alike_within (.same _)⟩
  | isOpen h =>
    refine looks ?_ ran
    rw [Registry.isOpen, Registry.isOpen, Registry.channel?_leavingOut, Option.isSome_map]
    exact .same _
  | channelCount =>
    refine looks ?_ ran
    rw [Registry.channelCount_leavingOut]
    exact .same _
  | size h => exact inspects (fun _ => rfl) ran
  | isEmpty h => exact inspects (fun _ => rfl) ran
  | capacity h => exact inspects (fun _ => rfl) ran
  | waiting side h =>
    refine looks ?_ ran
    rw [Registry.inspect, Registry.inspect, Registry.channel?_leavingOut]
    cases found : r.channel? h with
    | none => exact .same _
    | some c =>
      by_cases waits : waits
      · exact .count waits _ _
      · have same : ((c.leavingOut t).line side).size = (c.line side).size := by
          rw [Channel.line_leavingOut]
          exact WaitLine.size_leavingOut_of_not_mem (gone waits h c found side)
        simp only [Option.map_some, same]
        exact .same _
  | trySend h m =>
    refine answer_leavingOut hides ran keeps fun c p hides done keeps => ?_
    cases done
    rw [Channel.trySend_leavingOut hides keeps]
  | trySendMany h ms =>
    refine answer_leavingOut hides ran keeps fun c p hides done keeps => ?_
    cases done
    rw [Channel.trySendMany_leavingOut hides keeps]
  | tryRecv h =>
    refine answer_leavingOut hides ran keeps fun c p hides done keeps => ?_
    cases done
    rw [Channel.tryRecv_leavingOut hides keeps]
  | tryRecvMany h limit =>
    exact answer_leavingOut hides ran keeps fun c p hides done keeps =>
      Channel.tryRecvMany_leavingOut hides done keeps
  | tryBroadcast m =>
    cases ran
    exact ⟨_, congrArg (fun o => Except.ok (Outcome.map _ o))
      (Registry.tryBroadcast_leavingOut hides keeps), Outcome.alike_within (.same _)⟩

end Operation

/-! ### Requests -/

namespace Request

variable {r : Registry ω} {t : Ticket} {q : Request} {k : ω} {p : Place}

theorem attempt_leavingOut {o : Outcome (Registry ω) ω Attempt} (hides : r.Hides t)
    (ran : q.attempt r = .ok o) (keeps : r.Keeps o.state t) :
    q.attempt (r.leavingOut t) = .ok (o.within (·.leavingOut t)) := by
  cases q with
  | send a m =>
    obtain ⟨p, done, rfl⟩ := Outcome.of_map_eq_ok ran
    rw [attempt, Registry.onAddress_leavingOut hides done keeps fun c p hides done keeps => ?_]
    · rfl
    · cases done
      rw [Channel.sendStep_leavingOut hides keeps]
      rfl
  | sendMany a ms =>
    obtain ⟨p, done, rfl⟩ := Outcome.of_map_eq_ok ran
    rw [attempt, Registry.onAddress_leavingOut hides done keeps fun c p hides done keeps => ?_]
    · rfl
    · cases done
      rw [Channel.trySendMany_leavingOut hides keeps]
  | recv a =>
    obtain ⟨p, done, rfl⟩ := Outcome.of_map_eq_ok ran
    rw [attempt, Registry.onAddress_leavingOut hides done keeps fun c p hides done keeps => ?_]
    · rfl
    · cases done
      rw [Channel.tryRecv_leavingOut hides keeps]
  | recvMany a limit =>
    obtain ⟨p, done, rfl⟩ := Outcome.of_map_eq_ok ran
    rw [attempt, Registry.onAddress_leavingOut hides done keeps fun c p hides done keeps =>
      Channel.recvManyStep_leavingOut hides done keeps]
    rfl
  | broadcast m =>
    cases ran
    rw [attempt, Registry.attemptBroadcast_leavingOut hides keeps]
    rfl

/-- Outcomes that are the same without a waiter, and take other places than its own. -/
abbrev TurnsWithout (t : Ticket) :
    Outcome (Registry ω) ω Turn → Outcome (Registry ω) ω Turn → Prop :=
  Outcome.Alike (fun r r' => r' = r.leavingOut t)
    (Turn.Alike fun p p' => p' = p.leavingOut t ∧ p.ticket ≠ t)

theorem onGone_leavingOut (q : Request) (r : Registry ω) (t : Ticket) :
    TurnsWithout t (q.onGone r) (q.onGone (r.leavingOut t)) := by
  cases q with
  | broadcast m => exact ⟨.again _, rfl, rfl⟩
  | _ => exact ⟨.finished _, rfl, rfl⟩

/-- A request comes to the same without a waiter that is not woken. -/
theorem pursue_leavingOut {o : Outcome (Registry ω) ω Turn} (hides : r.Hides t)
    (ran : q.pursue r k = .ok o) (keeps : r.Keeps o.state t) :
    ∃ o', q.pursue (r.leavingOut t) k = .ok o' ∧ TurnsWithout t o o' := by
  obtain ⟨tried, attempts, fares⟩ := q.attempt_fares r
  simp only [pursue, attempts, bind, Except.bind] at ran
  obtain ⟨next, went, -, left, -⟩ := Outcome.of_andThen_eq_ok ran
  cases ended : tried.answer with
  | finished result =>
    rw [ended] at went
    cases went
    rw [left] at keeps
    simp only [pursue, attempt_leavingOut hides attempts keeps, bind, Except.bind]
    refine Outcome.exists_andThen_alike (o := tried) rfl ran fun p went _ => ?_
    rw [ended] at went
    cases went
    rw [Outcome.answer_within, ended]
    exact ⟨_, rfl, .finished result, rfl, rfl⟩
  | blocked a side =>
    -- An attempt that is blocked does nothing, so the place is taken on the same bus.
    have same : tried.state = r := by
      rw [ended] at fares
      generalize tried.state = r' at fares
      cases fares
      rfl
    have kept : r.Keeps tried.state t := by
      rw [same]
      exact .refl r t
    simp only [pursue, attempt_leavingOut hides attempts kept, bind, Except.bind]
    refine Outcome.exists_andThen_alike (o := tried) rfl ran fun p went state => ?_
    rw [Outcome.answer_within, Outcome.state_within, same, ended]
    rw [same, ended] at went
    rw [← state] at keeps
    cases parks : r.park a side k with
    | error fault =>
      simp only [parks] at went
      cases went
    | ok parked =>
      simp only [parks] at went
      obtain ⟨next, went', -, state', -⟩ := Outcome.of_andThen_eq_ok went
      have stays : next.state = parked.state := by
        cases answer : parked.answer <;> rw [answer] at went' <;> cases went'
        · cases q <;> rfl
        · rfl
      rw [state', stays] at keeps
      obtain ⟨parked', parks', alike⟩ := Registry.park_leavingOut hides parks keeps
      simp only [parks']
      refine Outcome.exists_andThen_alike (o := parked) alike.woken went fun p went _ => ?_
      have places := alike.answer
      have states := alike.state
      generalize parked.answer = before at places went
      generalize parked'.answer = after at places ⊢
      cases places with
      | none =>
        cases went
        rw [states]
        exact ⟨_, rfl, onGone_leavingOut q _ t⟩
      | some place =>
        cases went
        exact ⟨_, rfl, .parked q place, states, rfl⟩

theorem advance_leavingOut {o : Outcome (Registry ω) ω Turn} (other : p.ticket ≠ t)
    (hides : r.Hides t) (ran : q.advance r p k = .ok o) (keeps : r.Keeps o.state t) :
    ∃ o', q.advance (r.leavingOut t) (p.leavingOut t) k = .ok o' ∧ TurnsWithout t o o' := by
  rw [advance] at ran ⊢
  have looks := Registry.revisit_leavingOut (r := r) (k := k) other
  refine Outcome.exists_andThen_alike looks.woken ran fun next went left => ?_
  rw [← looks.answer, looks.state]
  rw [← left] at keeps
  rcases r.standing_cases p with queued | called | gone
  · obtain ⟨c, l, -, -, stands, -⟩ := Registry.revisit_of_queued queued k
    rw [stands] at went ⊢
    cases went
    exact ⟨_, rfl, .waiting, rfl, rfl⟩
  · obtain ⟨stands, same⟩ := Registry.revisit_of_called called k
    rw [stands, same] at went ⊢
    exact pursue_leavingOut hides went keeps
  · obtain ⟨stands, same⟩ := Registry.revisit_of_gone gone k
    rw [stands, same] at went ⊢
    have ends := onGone_leavingOut q r t
    refine Outcome.exists_andThen_alike ends.woken went fun last went left => ?_
    rw [← left] at keeps
    cases q with
    | broadcast m => exact pursue_leavingOut hides went keeps
    | _ =>
      cases went
      exact ⟨_, rfl, .finished _, rfl, rfl⟩

/-- A look at a request comes to the same without a waiter that is not woken, unless it is the
waiter's own. -/
theorem look_leavingOut {o : Outcome (Registry ω) ω Turn} {prior : Option Place}
    (other : ∀ p ∈ prior, p.ticket ≠ t) (hides : r.Hides t) (ran : q.look r prior k = .ok o)
    (keeps : r.Keeps o.state t) :
    ∃ o', q.look (r.leavingOut t) (prior.map (·.leavingOut t)) k = .ok o' ∧
      TurnsWithout t o o' := by
  cases prior with
  | none => exact pursue_leavingOut hides ran keeps
  | some p => exact advance_leavingOut (other p rfl) hides ran keeps

end Request

end MessageBus
