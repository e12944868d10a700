import MessageBus.Proofs.WaitEntries

/-!
# What errands do to the entries

An operation or an attempt at a request pops entries and does nothing else to them. A look at a
request, a bare wait, and a place that is given up add one entry, renew one, or take one out. So of
the entries that are gone after an errand, each was popped and its waker is to be called, unless
its place was just given up (`Errand.wakes_leaving`).
-/

namespace MessageBus

variable {ω α : Type}

namespace Registry

variable {r r' : Registry ω} {h : Handle} {c c' : Channel ω} {a : Address} {p : Place} {k : ω}
  {side : Side}

theorem shifts_onChannel
    {act : Channel ω → Except Fault (Outcome (Channel ω) ω (Except BusError α))}
    {o : Outcome (Registry ω) ω (Except BusError α)} (ran : r.onChannel h act = .ok o)
    (pops : ∀ c p, act c = .ok p → c.PopsInOrder p.state p.woken) :
    r.Shifts o.state [] [] o.woken := by
  rcases of_onChannel_eq_ok ran with rfl | ⟨c, p, found, done, rfl⟩
  · exact .refl r
  · exact shifts_of_pops found (pops c p done).pops

theorem shifts_onAddress
    {act : Channel ω → Except Fault (Outcome (Channel ω) ω (Except BusError α))}
    {o : Outcome (Registry ω) ω (Except BusError α)} (ran : r.onAddress a act = .ok o)
    (pops : ∀ c p, act c = .ok p → c.PopsInOrder p.state p.woken) :
    r.Shifts o.state [] [] o.woken := by
  rcases of_onAddress_eq_ok ran with rfl | ⟨c, p, found, done, rfl⟩
  · exact .refl r
  · exact shifts_of_pops (find?_eq_some_iff.1 found).1 (pops c p done).pops

/-- Who takes a place has an entry from then on, and had none before. -/
theorem shifts_park {o : Outcome (Registry ω) ω (Option Place)} (found : r.find? a = some c)
    (ran : r.park a side k = .ok o) : r.isQueued ⟨a, side, ⟨r.nextTicket⟩⟩ = false ∧
      r.Shifts o.state [] [(⟨a, side, ⟨r.nextTicket⟩⟩, k)] o.woken := by
  obtain ⟨slot, id⟩ := find?_eq_some_iff.1 found
  have address : a = ⟨a.handle, c.id⟩ := by rw [id]
  obtain ⟨fresh, -, state, woken⟩ := joins_of_park found ran
  have out : r.isQueued ⟨a, side, ⟨r.nextTicket⟩⟩ = false := by
    rw [← Bool.not_eq_true, isQueued_of_find? (p := ⟨a, side, _⟩) found, Channel.tickets,
      ← WaitLine.contains_iff_mem_tickets, fresh]
    exact Bool.false_ne_true
  refine ⟨out, ?_⟩
  rw [state, woken]
  let parked := c.setLine side ⟨(c.line side).waiters ++ [⟨⟨r.nextTicket⟩, k⟩]⟩
  have joined : (parked.standing a.handle).Perm
      ([(⟨a, side, ⟨r.nextTicket⟩⟩, k)] ++ c.standing a.handle) := by
    obtain ⟨rest, whole, changed⟩ := c.standing_split a.handle side
    refine (changed _).trans (.trans ?_ (whole.append_left _).symm)
    rw [List.map_append, List.append_assoc, ← address]
    exact List.perm_append_comm_assoc _ _ _
  have waits : r.Shifts (r.issue.put a.handle parked) []
      [(⟨a, side, ⟨r.nextTicket⟩⟩, k)] [] :=
    shifts_exchange (r := r.issue) slot (.refl _) joined
  cases side with
  | senders => exact waits
  | receivers =>
    show r.Shifts (r.issue.put a.handle parked.receiverParked.1) [] _ parked.receiverParked.2
    rw [Channel.receiverParked]
    split
    · refine shifts_put (r := r.issue) slot (.refl _) ?_ ?_
      · rw [address]
        simp only [parked, Channel.standing, Channel.setLine, Channel.line, WaitLine.wakeAll,
          WaitLine.empty, List.map_append, List.map_nil, List.nil_append]
        exact List.perm_append_comm
      · rw [List.map_map]
        exact .refl _
    · exact waits

/-- Who is left waiting has a new waker. -/
theorem shifts_revisit (queued : r.isQueued p = true) (k : ω) :
    ∃ k', r.Shifts (r.revisit p k).state [(p, k')] [(p, k)] (r.revisit p k).woken := by
  obtain ⟨c, found, inside⟩ := exists_of_isQueued queued
  obtain ⟨slot, id⟩ := find?_eq_some_iff.1 found
  have address : p.address = ⟨p.address.handle, c.id⟩ := by rw [id]
  cases fresh : (c.line p.side).refresh? p.ticket k with
  | none => exact absurd inside ((WaitLine.refresh?_eq_none_iff _ _ _).1 fresh)
  | some l =>
    obtain ⟨rest, whole, changed⟩ := c.standing_split p.address.handle p.side
    obtain ⟨k', before, after, was, is⟩ := WaitLine.waiters_of_refresh? fresh
    have apart (k : ω) : ((before ++ ⟨p.ticket, k⟩ :: after).map
        (Waiter.entry ⟨p.address.handle, c.id⟩ p.side) ++ rest).Perm
          ([(p, k)] ++ ((before ++ after).map (Waiter.entry p.address p.side) ++ rest)) := by
      rw [← address, List.map_append, List.map_append, List.map_cons]
      exact List.perm_middle.append_right rest
    refine ⟨k', ?_⟩
    simp only [revisit, found, fresh]
    exact shifts_exchange slot (whole.trans (was ▸ apart k')) ((changed l).trans (is ▸ apart k))

/-- A place that is given up leaves its line, or else the first of the line is popped. -/
theorem shifts_abandon (r : Registry ω) (p : Place) :
    r.Shifts (r.abandon p).state [] [] (r.abandon p).woken ∧ r.isQueued p = false ∨
      ∃ k, r.Shifts (r.abandon p).state [(p, k)] [] (r.abandon p).woken := by
  rcases r.standing_cases p with queued | called | gone
  · obtain ⟨c, found, inside⟩ := exists_of_isQueued queued
    obtain ⟨slot, id⟩ := find?_eq_some_iff.1 found
    have address : p.address = ⟨p.address.handle, c.id⟩ := by rw [id]
    obtain ⟨l, removed, -⟩ := WaitLine.remove?_of_mem inside
    obtain ⟨rest, whole, changed⟩ := c.standing_split p.address.handle p.side
    obtain ⟨k, before, after, was, is⟩ := WaitLine.waiters_of_remove? removed
    refine .inr ⟨k, ?_⟩
    simp only [abandon, found, removed]
    refine shifts_exchange slot (whole.trans ?_) (is ▸ changed l)
    rw [was, ← address, List.map_append, List.map_append, List.map_cons]
    exact List.perm_middle.append_right rest
  · obtain ⟨c, found, out⟩ := hasCalled_iff.1 called
    have none := WaitLine.remove?_of_not_mem out
    refine .inl ⟨?_, isQueued_eq_false_of_hasCalled called⟩
    simp only [abandon, found, none]
    exact shifts_of_pops (find?_eq_some_iff.1 found).1 (c.popsInOrder_wakeFirst p.side).pops
  · refine .inl ⟨?_, isQueued_eq_false_of_gone gone⟩
    simp only [abandon, gone]
    exact .refl r

end Registry

/-- An operation pops entries, and that is all that it does to them. -/
theorem Operation.shifts_apply {r : Registry ω} {op : Operation}
    {o : Outcome (Registry ω) ω Reply} (ran : op.apply r = .ok o) :
    r.Shifts o.state [] [] o.woken := by
  cases op with
  | openChannel bound =>
    cases ran
    exact r.shifts_openChannel bound
  | close h =>
    cases ran
    exact r.shifts_close h
  | delete =>
    cases ran
    exact r.shifts_delete
  | trySend h m =>
    obtain ⟨p, did, rfl⟩ := Outcome.of_map_eq_ok ran
    refine Registry.shifts_onChannel did fun c p done => ?_
    cases done
    exact c.popsInOrder_trySend m
  | trySendMany h ms =>
    obtain ⟨p, did, rfl⟩ := Outcome.of_map_eq_ok ran
    refine Registry.shifts_onChannel did fun c p done => ?_
    cases done
    exact c.popsInOrder_trySendMany ms
  | tryRecv h =>
    obtain ⟨p, did, rfl⟩ := Outcome.of_map_eq_ok ran
    refine Registry.shifts_onChannel did fun c p done => ?_
    cases done
    exact c.popsInOrder_tryRecv
  | tryRecvMany h limit =>
    obtain ⟨p, did, rfl⟩ := Outcome.of_map_eq_ok ran
    exact Registry.shifts_onChannel did fun c p done => Channel.popsInOrder_tryRecvMany done
  | tryBroadcast m =>
    cases ran
    simp only [Outcome.state_map, Outcome.woken_map, Registry.tryBroadcast]
    split
    · exact .refl r
    · split
      · exact r.shifts_commitAll m false
      · exact .refl r
  | _ =>
    cases ran
    exact .refl r

/-- An attempt at a request pops entries, and that is all that it does to them. -/
theorem Request.shifts_attempt {r : Registry ω} {q : Request}
    {o : Outcome (Registry ω) ω Attempt} (ran : q.attempt r = .ok o) :
    r.Shifts o.state [] [] o.woken := by
  cases q with
  | send a m =>
    obtain ⟨p, did, rfl⟩ := Outcome.of_map_eq_ok ran
    refine Registry.shifts_onAddress did fun c p done => ?_
    cases done
    exact c.popsInOrder_sendStep m
  | sendMany a ms =>
    obtain ⟨p, did, rfl⟩ := Outcome.of_map_eq_ok ran
    refine Registry.shifts_onAddress did fun c p done => ?_
    cases done
    exact c.popsInOrder_trySendMany ms
  | recv a =>
    obtain ⟨p, did, rfl⟩ := Outcome.of_map_eq_ok ran
    refine Registry.shifts_onAddress did fun c p done => ?_
    cases done
    exact c.popsInOrder_tryRecv
  | recvMany a limit =>
    obtain ⟨p, did, rfl⟩ := Outcome.of_map_eq_ok ran
    exact Registry.shifts_onAddress did fun c p done => Channel.popsInOrder_recvManyStep done
  | broadcast m =>
    cases ran
    simp only [Outcome.state_map, Outcome.woken_map, Registry.attemptBroadcast]
    split
    · exact .refl r
    · split
      · exact .refl r
      · exact r.shifts_commitAll m true

namespace Errand

variable {r : Registry ω} {e : Errand ω} {o : Outcome (Registry ω) ω Upshot}
  {held held' : List Stay} {p : Place} {k : ω}

/-- The waker that an errand leaves with a place. -/
def waker? : Errand ω → Option ω
  | look _ _ k => some k
  | park _ _ k => some k
  | revisit _ k => some k
  | _ => none

/-- Whether an errand gives up this place. -/
def givesUp (p : Place) : Errand ω → Bool
  | abandon p' => p' = p
  | _ => false

/-- What an errand does to the entries in the lines. -/
inductive Rearranges (e : Errand ω) (r : Registry ω) (o : Outcome (Registry ω) ω Upshot) :
    Prop where
  | pops (places : o.answer.places = []) (shifts : r.Shifts o.state [] [] o.woken)
      (out : ∀ p, e.givesUp p = true → r.isQueued p = false)
  | joins {p : Place} {k : ω} (new : r.isQueued p = false) (own : e.waker? = some k)
      (places : o.answer.places = [p]) (shifts : r.Shifts o.state [] [(p, k)] o.woken)
  | renews {p : Place} {k k' : ω} (own : e.waker? = some k') (places : o.answer.places = [p])
      (shifts : r.Shifts o.state [(p, k)] [(p, k')] o.woken)
  | removes {p : Place} {k : ω} (abandons : e = .abandon p) (places : o.answer.places = [])
      (shifts : r.Shifts o.state [(p, k)] [] o.woken)

theorem rearranges (ran : e.effect r = .ok o) : e.Rearranges r o := by
  cases e with
  | operate op =>
    obtain ⟨p, did, rfl⟩ := Outcome.of_map_eq_ok ran
    exact .pops rfl (Operation.shifts_apply did) nofun
  | look q prior k =>
    obtain ⟨⟨turn, r', woken, notes, afterwards⟩, did, rfl⟩ := Outcome.of_map_eq_ok ran
    have ends := Request.ends_of_look did
    cases ends with
    | tried _ tries _ => exact .pops rfl (Request.shifts_attempt tries) nofun
    | parked _ _ found parks =>
      obtain ⟨new, shifts⟩ := Registry.shifts_park found parks
      exact .joins new rfl rfl shifts
    | waiting queued =>
      obtain ⟨k', shifts⟩ := Registry.shifts_revisit queued k
      rw [Request.woken_revisit] at shifts
      exact .renews rfl rfl shifts
    | gone _ => exact .pops rfl (.refl _) nofun
  | park a side k =>
    obtain ⟨p, did, rfl⟩ := Outcome.of_map_eq_ok ran
    cases found : r.find? a with
    | none =>
      cases did.symm.trans (Registry.park_of_gone found side k)
      exact .pops rfl (.refl _) nofun
    | some c =>
      have place := (Registry.joins_of_park found did).answer
      obtain ⟨new, shifts⟩ := Registry.shifts_park found did
      exact .joins new rfl (by rw [Outcome.answer_map, place]; rfl) shifts
  | revisit p k =>
    cases ran
    rcases r.standing_cases p with queued | called | gone
    · obtain ⟨k', shifts⟩ := Registry.shifts_revisit queued k
      obtain ⟨c, l, -, -, stands, -⟩ := Registry.revisit_of_queued queued k
      exact .renews rfl (by rw [Outcome.answer_map, stands]; rfl) shifts
    · obtain ⟨stands, same⟩ := Registry.revisit_of_called called k
      refine .pops (by rw [Outcome.answer_map, stands]; rfl) ?_ nofun
      rw [Outcome.state_map, Outcome.woken_map, same, Request.woken_revisit]
      exact .refl r
    · obtain ⟨stands, same⟩ := Registry.revisit_of_gone gone k
      refine .pops (by rw [Outcome.answer_map, stands]; rfl) ?_ nofun
      rw [Outcome.state_map, Outcome.woken_map, same, Request.woken_revisit]
      exact .refl r
  | abandon p =>
    cases ran
    rcases r.shifts_abandon p with ⟨shifts, out⟩ | ⟨k, shifts⟩
    · refine .pops rfl shifts fun p' gives => ?_
      rw [← of_decide_eq_true gives]
      exact out
    · exact .removes rfl rfl shifts
  | glance =>
    cases ran
    exact .pops rfl (.refl _) nofun

/-- Whoever holds a place after an errand, for it, is queued there. -/
theorem Rearranges.queued (rearranges : e.Rearranges r o) (holds : p ∈ o.answer.places) :
    o.state.isQueued p = true := by
  have joined {p' : Place} {k : ω} {left : List (Place × ω)} (places : o.answer.places = [p'])
      (shifts : r.Shifts o.state left [(p', k)] o.woken) : o.state.isQueued p = true := by
    rw [places, List.mem_singleton] at holds
    obtain ⟨popped, stay, -, after, -⟩ := shifts
    rw [Registry.isQueued_iff_mem_waiting, (after.map _).mem_iff, holds]
    exact List.mem_cons_self
  cases rearranges with
  | pops places _ _ => simp [places] at holds
  | joins _ _ places shifts => exact joined places shifts
  | renews _ places shifts => exact joined places shifts
  | removes _ places _ => simp [places] at holds

/-- An entry was there before an errand, or its caller has just left its waker with it. -/
theorem Rearranges.origin (rearranges : e.Rearranges r o) (there : (p, k) ∈ o.state.waiting) :
    (p, k) ∈ r.waiting ∨ e.waker? = some k ∧ p ∈ o.answer.places := by
  have old {left joined : List (Place × ω)} (shifts : r.Shifts o.state left joined o.woken) :
      (p, k) ∈ joined ∨ (p, k) ∈ r.waiting := by
    obtain ⟨popped, stay, before, after, -⟩ := shifts
    refine (List.mem_append.1 (after.mem_iff.1 there)).imp_right fun stays => before.mem_iff.2 ?_
    exact List.mem_append_right _ (List.mem_append_right _ stays)
  have joined {p' : Place} {k' : ω} {left : List (Place × ω)} (own : e.waker? = some k')
      (places : o.answer.places = [p']) (shifts : r.Shifts o.state left [(p', k')] o.woken) :
      (p, k) ∈ r.waiting ∨ e.waker? = some k ∧ p ∈ o.answer.places := by
    refine (old shifts).symm.imp_right fun new => ?_
    cases List.mem_singleton.1 new
    exact ⟨own, places ▸ List.mem_singleton_self p⟩
  cases rearranges with
  | pops _ shifts _ => exact .inl ((old shifts).resolve_left List.not_mem_nil)
  | joins _ own places shifts => exact joined own places shifts
  | renews own places shifts => exact joined own places shifts
  | removes _ _ shifts => exact .inl ((old shifts).resolve_left List.not_mem_nil)

end Errand

/-! ### Who is woken -/

namespace Registry

variable {r r' : Registry ω} {held : List Stay} {left joined : List (Place × ω)} {woken : List ω}

/-- The entries of a registry that are gone in a later one. -/
def leaving (r r' : Registry ω) : List (Place × ω) := r.waiting.filter (!r'.isQueued ·.1)

theorem mem_leaving_iff {p : Place} : p ∈ (r.leaving r').map (·.1) ↔
    r.isQueued p = true ∧ r'.isQueued p = false := by
  rw [isQueued_iff_mem_waiting, leaving, List.mem_map, List.mem_map]
  simp only [List.mem_filter, Bool.not_eq_true']
  constructor
  · rintro ⟨entry, ⟨there, out⟩, rfl⟩
    exact ⟨⟨entry, there, rfl⟩, out⟩
  · rintro ⟨⟨entry, there, rfl⟩, out⟩
    exact ⟨entry, ⟨there, out⟩, rfl⟩

/-- The entries before, with those that are new, are those that are gone, with the ones after. -/
theorem leaving_perm (single : (r.waiting.map (·.1)).Nodup)
    (single' : (r'.waiting.map (·.1)).Nodup) :
    ((r.leaving r').map (·.1) ++ r'.waiting.map (·.1)).Perm
      (r.waiting.map (·.1) ++ (r'.leaving r).map (·.1)) := by
  have split (r r' : Registry ω) : (r.waiting.map (·.1)).Perm
      ((r.waiting.map (·.1)).filter r'.isQueued ++ (r.leaving r').map (·.1)) := by
    have parts := (List.filter_append_perm (r'.isQueued ·) (r.waiting.map (·.1))).symm
    rw [List.filter_map (p := fun p => !r'.isQueued p)] at parts
    exact parts
  have stay : ((r.waiting.map (·.1)).filter r'.isQueued).Perm
      ((r'.waiting.map (·.1)).filter r.isQueued) := by
    rw [List.perm_ext_iff_of_nodup (single.filter _) (single'.filter _)]
    intro p
    rw [List.mem_filter, List.mem_filter, ← isQueued_iff_mem_waiting, ← isQueued_iff_mem_waiting]
    exact And.comm
  refine ((split r' r).append_left _).trans (.trans ?_ ((split r r').append_right _).symm)
  rw [← List.append_assoc]
  exact .append_right _ (List.perm_append_comm.trans (stay.symm.append_right _))

/-- The handles of the open channels ascend. -/
theorem ascending_entries (r : Registry ω) : (r.entries.map (·.1)).Pairwise (· < ·) := by
  have within (slots : List (Option (Channel ω))) (n : Nat) :
      ((entriesFrom slots n).map (·.1)).Sublist (List.range' n slots.length) := by
    induction slots generalizing n with
    | nil => exact .refl _
    | cons slot slots ih =>
      rw [List.length_cons, List.range'_succ]
      cases slot with
      | none => exact (ih (n + 1)).cons n
      | some c => exact (ih (n + 1)).cons_cons n
  have range : (List.range' 0 r.slots.length).Pairwise (· < ·) := List.pairwise_lt_range'
  exact range.sublist (within r.slots 0)

theorem nodup_entries (r : Registry ω) : (r.entries.map (·.1)).Nodup :=
  r.ascending_entries.imp Nat.ne_of_lt

/-- No place has two entries if no line has a ticket twice. -/
theorem nodup_waiting
    (single : ∀ a c side, r.find? a = some c → (c.tickets side).Nodup) :
    (r.waiting.map (·.1)).Nodup := by
  rw [waiting, List.map_flatMap, List.nodup_flatMap]
  constructor
  · rintro ⟨h, c⟩ entry
    have found := find?_of_channel? (mem_entries_iff.1 entry)
    have line (side : Side) : (((c.line side).waiters.map
        (Waiter.entry ⟨h, c.id⟩ side)).map (·.1)).Nodup := by
      have places := (single ⟨h, c.id⟩ c side found).map
        (f := fun t => (⟨⟨h, c.id⟩, side, t⟩ : Place)) fun t t' same => congrArg Place.ticket same
      rw [Channel.tickets, WaitLine.tickets, List.map_map] at places
      rwa [List.map_map]
    rw [Channel.standing, List.map_append]
    refine List.nodup_append.2 ⟨line .senders, line .receivers, ?_⟩
    rintro p first p' second rfl
    simp only [List.map_map, List.mem_map] at first second
    obtain ⟨w, -, rfl⟩ := first
    obtain ⟨w', -, same⟩ := second
    cases congrArg Place.side same
  · have apart := r.nodup_entries
    rw [List.nodup_iff_pairwise_ne, List.pairwise_map] at apart
    refine apart.imp fun {entry entry'} other p first second => other ?_
    have handle (entry : Handle × Channel ω)
        (there : p ∈ (entry.2.standing entry.1).map (·.1)) : p.address.handle = entry.1 := by
      simp only [Channel.standing, List.map_append, List.map_map, List.mem_append,
        List.mem_map] at there
      rcases there with ⟨w, -, rfl⟩ | ⟨w, -, rfl⟩
      · rfl
      · rfl
    rw [← handle entry first, handle entry' second]

theorem Balanced.nodup_waiting (bal : r.Balanced held) : (r.waiting.map (·.1)).Nodup :=
  r.nodup_waiting bal.single

/-- The entries are for those of the places held that are queued. -/
theorem Balanced.waiting_perm (bal : r.Balanced held) :
    (r.waiting.map (·.1)).Perm ((held.map (·.place)).filter r.isQueued) := by
  have places : (held.map (·.place)).Nodup := by
    refine .of_map (·.ticket) ?_
    rw [List.map_map]
    exact bal.distinct
  rw [List.perm_ext_iff_of_nodup bal.nodup_waiting (places.filter _)]
  intro p
  rw [List.mem_filter, ← isQueued_iff_mem_waiting]
  constructor
  · intro queued
    obtain ⟨c, found, inside⟩ := exists_of_isQueued queued
    exact ⟨bal.owned p.address c p.side p.ticket found inside, queued⟩
  · exact fun held => held.2

/-- The entries that are gone were popped, and their wakers are those that are to be called, unless
their places were given up. -/
theorem Shifts.wakes (shifts : r.Shifts r' left joined woken) (single : (r.waiting.map (·.1)).Nodup)
    (given : Place → Bool)
    (new : ∀ p ∈ joined.map (·.1), r.isQueued p = true → p ∈ left.map (·.1))
    (own : ∀ p ∈ left.map (·.1), given p = true ∨ p ∈ joined.map (·.1))
    (gives : ∀ p, given p = true → r.isQueued p = true → p ∈ left.map (·.1)) :
    (((r.leaving r').filter (!given ·.1)).map (·.2)).Perm woken := by
  obtain ⟨popped, stay, before, after, wakers⟩ := shifts
  have later (p : Place) : r'.isQueued p = true ↔
      p ∈ joined.map (·.1) ∨ p ∈ stay.map (·.1) := by
    rw [isQueued_iff_mem_waiting, (after.map _).mem_iff, List.map_append, List.mem_append]
  rw [(before.map _).nodup_iff, List.map_append, List.map_append] at single
  obtain ⟨-, single', apart⟩ := List.nodup_append.1 single
  -- Of the three parts of the entries, it is the first that is left.
  have first : (popped.filter (!r'.isQueued ·.1)).filter (!given ·.1) = popped := by
    rw [List.filter_filter, List.filter_eq_self]
    intro entry member
    have queued : r.isQueued entry.1 = true := by
      rw [isQueued_iff_mem_waiting, (before.map _).mem_iff]
      exact List.mem_map_of_mem (List.mem_append_left _ member)
    have other (p : Place) (there : p ∈ left.map (·.1) ++ stay.map (·.1)) : entry.1 ≠ p :=
      apart entry.1 (List.mem_map_of_mem member) p there
    have notLeft : entry.1 ∉ left.map (·.1) := fun there =>
      other _ (List.mem_append_left _ there) rfl
    have out : r'.isQueued entry.1 = false := by
      rw [← Bool.not_eq_true, later]
      rintro (there | there)
      · exact notLeft (new _ there queued)
      · exact other _ (List.mem_append_right _ there) rfl
    have kept : given entry.1 = false := by
      rw [← Bool.not_eq_true]
      exact fun there => notLeft (gives _ there queued)
    simp [out, kept]
  have second : (left.filter (!r'.isQueued ·.1)).filter (!given ·.1) = [] := by
    rw [List.filter_filter, List.filter_eq_nil_iff]
    intro entry member
    rcases own entry.1 (List.mem_map_of_mem member) with there | there
    · simp [there]
    · simp [(later entry.1).2 (.inl there)]
  have third : (stay.filter (!r'.isQueued ·.1)).filter (!given ·.1) = [] := by
    rw [List.filter_filter, List.filter_eq_nil_iff]
    intro entry member
    simp [(later entry.1).2 (.inr (List.mem_map_of_mem member))]
  have parts := ((before.filter (!r'.isQueued ·.1)).filter (!given ·.1)).map (·.2)
  rw [List.filter_append, List.filter_append, List.filter_append, List.filter_append, first, second,
    third, List.append_nil, List.append_nil] at parts
  exact parts.trans wakers

end Registry

namespace Errand

variable {r : Registry ω} {e : Errand ω} {o : Outcome (Registry ω) ω Upshot} {held : List Stay}

/-- Of the entries that are gone after an errand, the wakers are to be called, except for the place
that it gave up. -/
theorem wakes_leaving_of_nodup (single : (r.waiting.map (·.1)).Nodup)
    (ran : e.effect r = .ok o) :
    (((r.leaving o.state).filter (!e.givesUp ·.1)).map (·.2)).Perm o.woken := by
  have waits {k : ω} (own : e.waker? = some k) (p : Place) : e.givesUp p ≠ true := by
    cases e <;> simp [waker?, givesUp] at own ⊢
  cases rearranges ran with
  | pops _ shifts out =>
    refine shifts.wakes single (e.givesUp ·) (List.forall_mem_nil _) (List.forall_mem_nil _)
      fun p gives queued => ?_
    cases (out p gives).symm.trans queued
  | @joins p _ new own _ shifts =>
    refine shifts.wakes single (e.givesUp ·) (fun p' same queued => ?_) (List.forall_mem_nil _)
      fun p' gives => absurd gives (waits own p')
    rw [List.mem_singleton.1 same] at queued
    cases new.symm.trans queued
  | renews own _ shifts =>
    exact shifts.wakes single (e.givesUp ·) (fun _ same _ => same) (fun _ same => .inr same)
      fun p' gives => absurd gives (waits own p')
  | removes abandons _ shifts =>
    subst abandons
    refine shifts.wakes single (givesUp · (.abandon _)) (List.forall_mem_nil _)
      (fun p' same => .inl ?_) fun p' gives _ => ?_
    · rw [List.mem_singleton.1 same]
      exact decide_eq_true rfl
    · exact List.mem_singleton.2 (of_decide_eq_true gives).symm

theorem wakes_leaving (bal : r.Balanced held) (ran : e.effect r = .ok o) :
    (((r.leaving o.state).filter (!e.givesUp ·.1)).map (·.2)).Perm o.woken :=
  wakes_leaving_of_nodup bal.nodup_waiting ran

end Errand

end MessageBus
