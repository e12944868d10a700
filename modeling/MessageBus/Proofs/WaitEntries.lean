import MessageBus.Proofs.Errands
import Mathlib.Data.List.Perm.Basic

/-!
# The entries in the lines of a bus

Everybody who waits on a bus stands in one of the lines of its channels, and an entry says where and
with which waker (`Registry.waiting`). An operation pops entries from the front of lines, and what
it hands out to be woken are the wakers of those that it popped, no more and no fewer
(`Channel.Pops`). Beside that an errand adds one entry, or gives one a new waker, or takes out the
one that its caller gives up (`Errand.Rearranges`).
-/

namespace MessageBus

section

variable {ω : Type}

namespace WaitLine

variable (l : WaitLine ω)

theorem waiters_wakeFirst : ∃ popped, l.waiters = popped ++ l.wakeFirst.1.waiters ∧
    popped.map (·.waker) = l.wakeFirst.2.toList := by
  rcases l with ⟨_ | ⟨w, rest⟩⟩
  · exact ⟨[], rfl, rfl⟩
  · exact ⟨[w], rfl, rfl⟩

theorem waiters_wakeUpTo (n : Nat) : ∃ popped, l.waiters = popped ++ (l.wakeUpTo n).1.waiters ∧
    popped.map (·.waker) = (l.wakeUpTo n).2 := by
  induction n generalizing l with
  | zero => exact ⟨[], rfl, rfl⟩
  | succ n ih =>
    rcases l with ⟨_ | ⟨w, rest⟩⟩
    · exact ⟨[], rfl, rfl⟩
    · obtain ⟨popped, left, wakers⟩ := ih ⟨rest⟩
      have left : rest = popped ++ (WaitLine.wakeUpTo ⟨rest⟩ n).1.waiters := left
      refine ⟨w :: popped, congrArg (w :: ·) left, ?_⟩
      rw [List.map_cons, wakers]
      rfl

/-- A new waker is left with one waiter. -/
theorem waiters_of_refresh? {l l' : WaitLine ω} {t : Ticket} {k : ω}
    (fresh : l.refresh? t k = some l') : ∃ k' before after,
      l.waiters = before ++ ⟨t, k'⟩ :: after ∧ l'.waiters = before ++ ⟨t, k⟩ :: after := by
  have split (ws ws' : List (Waiter ω)) (replaced : replaceWaker t k ws = some ws') :
      ∃ k' before after, ws = before ++ ⟨t, k'⟩ :: after ∧ ws' = before ++ ⟨t, k⟩ :: after := by
    induction ws generalizing ws' with
    | nil => cases replaced
    | cons w ws ih =>
      rw [replaceWaker] at replaced
      split at replaced
      · rename_i same
        cases replaced
        subst same
        exact ⟨w.waker, [], ws, rfl, rfl⟩
      · obtain ⟨later, found, rfl⟩ := Option.map_eq_some_iff.1 replaced
        obtain ⟨k', before, after, rfl, rfl⟩ := ih later found
        exact ⟨k', w :: before, after, rfl, rfl⟩
  obtain ⟨ws, replaced, rfl⟩ := Option.map_eq_some_iff.1 fresh
  exact split l.waiters ws replaced

/-- One waiter leaves the line. -/
theorem waiters_of_remove? {l l' : WaitLine ω} {t : Ticket} (removed : l.remove? t = some l') :
    ∃ k before after, l.waiters = before ++ ⟨t, k⟩ :: after ∧ l'.waiters = before ++ after := by
  rw [remove?] at removed
  split at removed
  · rename_i inside
    cases removed
    obtain ⟨w, member, ticket⟩ := List.any_eq_true.1 inside
    obtain ⟨w', before, after, -, same, whole, left⟩ :=
      List.exists_of_eraseP (p := fun w => decide (w.ticket = t)) member ticket
    refine ⟨w'.waker, before, after, ?_, left⟩
    rw [whole, ← of_decide_eq_true same]
  · cases removed

end WaitLine

/-! ### The lines of one channel -/

/-- Where a waiter stands, and through what it is woken. -/
def Waiter.entry (a : Address) (side : Side) (w : Waiter ω) : Place × ω :=
  (⟨a, side, w.ticket⟩, w.waker)

namespace Channel

variable {c d e : Channel ω} {woken woken' : List ω} {h : Handle}

/-- The entries in the lines of a channel. -/
def standing (c : Channel ω) (h : Handle) : List (Place × ω) :=
  c.senders.waiters.map (Waiter.entry ⟨h, c.id⟩ .senders) ++
    c.receivers.waiters.map (Waiter.entry ⟨h, c.id⟩ .receivers)

/-- One line of a channel can be looked at apart from the other. -/
theorem standing_split (c : Channel ω) (h : Handle) (side : Side) :
    ∃ rest, (c.standing h).Perm ((c.line side).waiters.map (Waiter.entry ⟨h, c.id⟩ side) ++ rest) ∧
      ∀ l, ((c.setLine side l).standing h).Perm
        (l.waiters.map (Waiter.entry ⟨h, c.id⟩ side) ++ rest) := by
  cases side with
  | senders => exact ⟨_, .refl _, fun l => .refl _⟩
  | receivers => exact ⟨_, List.perm_append_comm, fun l => List.perm_append_comm⟩

/-- Another state of the same channel, in which the first of its lines were popped, with these
wakers. -/
structure Pops (c d : Channel ω) (woken : List ω) : Prop where
  id : d.id = c.id
  lines : ∃ senders receivers, c.senders.waiters = senders ++ d.senders.waiters ∧
    c.receivers.waiters = receivers ++ d.receivers.waiters ∧
    ((senders ++ receivers).map (·.waker)).Perm woken

/-- The same, and the wakers of either line come in the order of the line. -/
structure PopsInOrder (c d : Channel ω) (woken : List ω) : Prop where
  id : d.id = c.id
  lines : ∃ senders receivers, c.senders.waiters = senders ++ d.senders.waiters ∧
    c.receivers.waiters = receivers ++ d.receivers.waiters ∧
    ((senders ++ receivers).map (·.waker)).Perm woken ∧
    (senders.map (·.waker)).Sublist woken ∧ (receivers.map (·.waker)).Sublist woken

theorem PopsInOrder.pops (inOrder : c.PopsInOrder d woken) : c.Pops d woken := by
  obtain ⟨id, senders, receivers, left, left', wakers, -⟩ := inOrder
  exact ⟨id, senders, receivers, left, left', wakers⟩

/-- The callers that left one line, from its front, and were called in this order. -/
theorem PopsInOrder.line (inOrder : c.PopsInOrder d woken) (side : Side) : ∃ popped,
    (c.line side).waiters = popped ++ (d.line side).waiters ∧
      (popped.map (·.waker)).Sublist woken := by
  obtain ⟨-, senders, receivers, left, left', -, called, called'⟩ := inOrder
  cases side with
  | senders => exact ⟨senders, left, called⟩
  | receivers => exact ⟨receivers, left', called'⟩

theorem PopsInOrder.refl (c : Channel ω) : c.PopsInOrder c [] :=
  ⟨rfl, [], [], rfl, rfl, .refl _, .refl _, .refl _⟩

theorem PopsInOrder.trans (first : c.PopsInOrder d woken) (second : d.PopsInOrder e woken') :
    c.PopsInOrder e (woken ++ woken') := by
  obtain ⟨id, senders, receivers, left, left', wakers, called, called'⟩ := first
  obtain ⟨id', senders', receivers', later, later', wakers', next, next'⟩ := second
  refine ⟨id'.trans id, senders ++ senders', receivers ++ receivers', ?_, ?_, ?_, ?_, ?_⟩
  · rw [left, later, List.append_assoc]
  · rw [left', later', List.append_assoc]
  · rw [List.map_append] at wakers wakers' ⊢
    rw [List.map_append, List.map_append]
    refine .trans ?_ (wakers.append wakers')
    rw [List.append_assoc, List.append_assoc]
    exact (List.perm_append_comm_assoc _ _ _).append_left _
  · rw [List.map_append]
    exact called.append next
  · rw [List.map_append]
    exact called'.append next'

/-- Only senders, or only receivers, were popped. -/
theorem popsInOrder_senders {popped : List (Waiter ω)} (id : d.id = c.id)
    (left : c.senders.waiters = popped ++ d.senders.waiters) (same : d.receivers = c.receivers) :
    c.PopsInOrder d (popped.map (·.waker)) := by
  refine ⟨id, popped, [], left, by rw [same]; rfl, ?_, .refl _, List.nil_sublist _⟩
  rw [List.append_nil]

theorem popsInOrder_receivers {popped : List (Waiter ω)} (id : d.id = c.id)
    (left : c.receivers.waiters = popped ++ d.receivers.waiters) (same : d.senders = c.senders) :
    c.PopsInOrder d (popped.map (·.waker)) :=
  ⟨id, [], popped, by rw [same]; rfl, left, .refl _, List.nil_sublist _, .refl _⟩

theorem popsInOrder_wakeFirst (c : Channel ω) (side : Side) :
    c.PopsInOrder (c.wakeFirst side).1 (c.wakeFirst side).2 := by
  cases side with
  | senders =>
    obtain ⟨popped, left, wakers⟩ := c.senders.waiters_wakeFirst
    have inOrder := popsInOrder_senders (c.id_wakeFirst .senders) left rfl
    rwa [wakers] at inOrder
  | receivers =>
    obtain ⟨popped, left, wakers⟩ := c.receivers.waiters_wakeFirst
    have inOrder := popsInOrder_receivers (c.id_wakeFirst .receivers) left rfl
    rwa [wakers] at inOrder

theorem popsInOrder_queue (c : Channel ω) (q : Fifo Message) :
    c.PopsInOrder { c with queue := q } [] :=
  ⟨rfl, [], [], rfl, rfl, .refl _, .refl _, .refl _⟩

theorem popsInOrder_trySend (c : Channel ω) (m : Message) :
    c.PopsInOrder (c.trySend m).state (c.trySend m).woken := by
  rw [trySend]
  split
  · exact (c.popsInOrder_queue _).trans (popsInOrder_wakeFirst _ .receivers)
  · exact .refl c

theorem popsInOrder_sendStep (c : Channel ω) (m : Message) :
    c.PopsInOrder (c.sendStep m).state (c.sendStep m).woken := by
  have sent := c.popsInOrder_trySend m
  rw [sendStep]
  split
  · exact sent
  · exact sent.trans (popsInOrder_wakeFirst _ .senders)

theorem popsInOrder_commit (c : Channel ω) (m : Message) (cascade : Bool) :
    c.PopsInOrder (c.commit m cascade).1 (c.commit m cascade).2 := by
  have sent := (c.popsInOrder_queue (c.queue.push m)).trans (popsInOrder_wakeFirst _ .receivers)
  cases cascade
  · exact sent
  · exact sent.trans (popsInOrder_wakeFirst _ .senders)

theorem popsInOrder_trySendMany (c : Channel ω) (ms : List Message) :
    c.PopsInOrder (c.trySendMany ms).state (c.trySendMany ms).woken := by
  rw [trySendMany]
  split
  · exact .refl c
  · obtain ⟨popped, left, wakers⟩ := c.receivers.waiters_wakeUpTo (c.fitting ms)
    let sent : Channel ω :=
      { c with
        queue := c.queue.pushMany (ms.take (c.fitting ms))
        receivers := (c.receivers.wakeUpTo (c.fitting ms)).1 }
    have taken : c.PopsInOrder sent (popped.map (·.waker)) := popsInOrder_receivers rfl left rfl
    rw [wakers] at taken
    exact taken.trans (popsInOrder_wakeFirst sent .senders)

theorem popsInOrder_tryRecv (c : Channel ω) : c.PopsInOrder c.tryRecv.state c.tryRecv.woken := by
  rw [tryRecv]
  split
  · exact .refl c
  · exact (c.popsInOrder_queue _).trans (popsInOrder_wakeFirst _ .senders)

theorem popsInOrder_tryRecvMany {limit : Nat}
    {o : Outcome (Channel ω) ω (Except BusError (List Message))}
    (ran : c.tryRecvMany limit = .ok o) : c.PopsInOrder o.state o.woken := by
  rw [tryRecvMany] at ran
  split at ran
  · cases ran
    exact .refl c
  · rw [Fifo.popMany_of_le (Nat.min_le_right _ _)] at ran
    cases ran
    exact (c.popsInOrder_queue _).trans (popsInOrder_wakeFirst _ .senders)

theorem popsInOrder_passOnLeftovers (c : Channel ω) :
    c.PopsInOrder c.passOnLeftovers.1 c.passOnLeftovers.2 := by
  rw [passOnLeftovers]
  split
  · exact .refl c
  · exact c.popsInOrder_wakeFirst .receivers

theorem popsInOrder_recvManyStep {limit : Nat}
    {o : Outcome (Channel ω) ω (Except BusError (List Message))}
    (ran : c.recvManyStep limit = .ok o) : c.PopsInOrder o.state o.woken := by
  rw [recvManyStep] at ran
  cases taken : c.tryRecvMany limit with
  | error f =>
    rw [taken] at ran
    cases ran
  | ok p =>
    rw [taken] at ran
    have ran := Except.ok.inj ran
    subst ran
    have inOrder := popsInOrder_tryRecvMany taken
    dsimp only
    split
    · exact inOrder
    · exact inOrder.trans (popsInOrder_passOnLeftovers _)

theorem popsInOrder_receiverParked (c : Channel ω) :
    c.PopsInOrder c.receiverParked.1 c.receiverParked.2 := by
  rw [receiverParked]
  split
  · exact popsInOrder_senders rfl (List.append_nil _).symm rfl
  · exact .refl c

/-- The entries that are popped are gone, and the others stay. -/
theorem Pops.standing (pops : c.Pops d woken) (h : Handle) : ∃ popped,
    (c.standing h).Perm (popped ++ d.standing h) ∧ (popped.map (·.2)).Perm woken := by
  obtain ⟨id, senders, receivers, left, left', wakers⟩ := pops
  refine ⟨senders.map (Waiter.entry ⟨h, c.id⟩ .senders) ++
    receivers.map (Waiter.entry ⟨h, c.id⟩ .receivers), ?_, ?_⟩
  · rw [Channel.standing, Channel.standing, id, left, left', List.map_append, List.map_append,
      List.append_assoc, List.append_assoc]
    exact (List.perm_append_comm_assoc _ _ _).append_left _
  · simpa [Waiter.entry, Function.comp_def] using wakers

/-- Closing a channel wakes everybody who stands there. -/
theorem standing_close (c : Channel ω) (h : Handle) : ((c.standing h).map (·.2)).Perm c.close := by
  rw [standing, List.map_append, close]
  refine List.perm_append_comm.trans ?_
  simp [WaitLine.wakeAll, Waiter.entry, Function.comp_def]

end Channel

/-! ### The lines of a bus -/

namespace Registry

variable {α : Type} {r r' : Registry ω} {h : Handle} {c c' : Channel ω} {a : Address} {p : Place}
  {k : ω} {woken : List ω} {left joined : List (Place × ω)}

/-- The entries in all lines of a bus. -/
def waiting (r : Registry ω) : List (Place × ω) := r.entries.flatMap fun entry =>
  entry.2.standing entry.1

theorem mem_waiting_iff : (p, k) ∈ r.waiting ↔
    ∃ c, r.find? p.address = some c ∧ ⟨p.ticket, k⟩ ∈ (c.line p.side).waiters := by
  have there (c : Channel ω) (side : Side) (h : Handle) :
      (p, k) ∈ (c.line side).waiters.map (Waiter.entry ⟨h, c.id⟩ side) ↔
        p.side = side ∧ p.address = ⟨h, c.id⟩ ∧ ⟨p.ticket, k⟩ ∈ (c.line side).waiters := by
    rw [List.mem_map]
    constructor
    · rintro ⟨w, member, same⟩
      cases same
      exact ⟨rfl, rfl, member⟩
    · rintro ⟨rfl, address, member⟩
      exact ⟨_, member, by rw [Waiter.entry, ← address]⟩
  simp only [waiting, List.mem_flatMap, Prod.exists, Channel.standing, List.mem_append]
  constructor
  · rintro ⟨h, c, entry, member | member⟩
    · obtain ⟨side, address, member⟩ := (there c .senders h).1 member
      refine ⟨c, ?_, side ▸ member⟩
      rw [address]
      exact find?_of_channel? (mem_entries_iff.1 entry)
    · obtain ⟨side, address, member⟩ := (there c .receivers h).1 member
      refine ⟨c, ?_, side ▸ member⟩
      rw [address]
      exact find?_of_channel? (mem_entries_iff.1 entry)
  · rintro ⟨c, found, member⟩
    obtain ⟨slot, id⟩ := find?_eq_some_iff.1 found
    have address : p.address = ⟨p.address.handle, c.id⟩ := by rw [id]
    refine ⟨p.address.handle, c, mem_entries_iff.2 slot, ?_⟩
    cases side : p.side with
    | senders => exact .inl ((there c .senders _).2 ⟨side, address, side ▸ member⟩)
    | receivers => exact .inr ((there c .receivers _).2 ⟨side, address, side ▸ member⟩)

/-- A place is queued exactly if there is an entry for it. -/
theorem isQueued_iff_mem_waiting : r.isQueued p = true ↔ p ∈ r.waiting.map (·.1) := by
  rw [List.mem_map]
  constructor
  · intro queued
    obtain ⟨c, found, member⟩ := exists_of_isQueued queued
    obtain ⟨w, there, ticket⟩ := List.mem_map.1 member
    exact ⟨(p, w.waker), mem_waiting_iff.2 ⟨c, found, ticket ▸ there⟩, rfl⟩
  · rintro ⟨⟨p, k⟩, member, rfl⟩
    obtain ⟨c, found, there⟩ := mem_waiting_iff.1 member
    exact (isQueued_of_find? found).2 (List.mem_map_of_mem there)

/-- A slot can be looked at apart from the others. -/
theorem entries_set {slot : Option (Channel ω)} (there : r.slots[h]? = some slot) :
    ∃ before after, r.entries = before ++ (slot.map (h, ·)).toList ++ after ∧
      ∀ slot', ({ r with slots := r.slots.set h slot' } : Registry ω).entries =
        before ++ (slot'.map (h, ·)).toList ++ after := by
  obtain ⟨inside, here⟩ := List.getElem?_eq_some_iff.1 there
  let entry : Option (Channel ω) × Handle → Option (Handle × Channel ω) :=
    fun (slot, h) => slot.map (h, ·)
  refine ⟨(r.slots.take h).zipIdx.filterMap entry,
    ((r.slots.drop (h + 1)).zipIdx (h + 1)).filterMap entry, ?_⟩
  have set (slot' : Option (Channel ω)) : ((r.slots.set h slot').zipIdx.filterMap entry) =
      (r.slots.take h).zipIdx.filterMap entry ++ (slot'.map (h, ·)).toList ++
        ((r.slots.drop (h + 1)).zipIdx (h + 1)).filterMap entry := by
    rw [List.set_eq_take_append_cons_drop, if_pos inside, List.zipIdx_append,
      List.filterMap_append, List.length_take_of_le (Nat.le_of_lt inside), Nat.zero_add,
      List.zipIdx_cons, List.append_assoc]
    congr 1
    cases slot' <;> rfl
  refine ⟨?_, set⟩
  have own := set slot
  rw [← here, List.set_getElem_self] at own
  rw [← here]
  exact own

/-- The entries of one channel, and those of all others. -/
theorem waiting_set {slot : Option (Channel ω)} (there : r.slots[h]? = some slot) :
    ∃ others, r.waiting.Perm ((slot.map (·.standing h)).getD [] ++ others) ∧
      ∀ slot', ({ r with slots := r.slots.set h slot' } : Registry ω).waiting.Perm
        ((slot'.map (·.standing h)).getD [] ++ others) := by
  obtain ⟨before, after, old, new⟩ := entries_set there
  let standing : Handle × Channel ω → List (Place × ω) := fun entry => entry.2.standing entry.1
  refine ⟨before.flatMap standing ++ after.flatMap standing, ?_⟩
  have moved (slot : Option (Channel ω)) :
      ((before ++ (slot.map (h, ·)).toList ++ after).flatMap standing).Perm
        ((slot.map (·.standing h)).getD [] ++
          (before.flatMap standing ++ after.flatMap standing)) := by
    rw [List.flatMap_append, List.flatMap_append, List.append_assoc]
    refine (List.perm_append_comm_assoc _ _ _).trans (.append_right _ ?_)
    cases slot with
    | none => exact .refl _
    | some c =>
      rw [Option.map_some, Option.toList_some, List.flatMap_singleton]
      exact .refl _
  refine ⟨?_, fun slot' => ?_⟩
  · rw [waiting, old]
    exact moved slot
  · rw [waiting, new slot']
    exact moved slot'

/-- What becomes of the entries of a bus: some were popped, with these wakers, and beside that some
left and some joined. -/
def Shifts (r r' : Registry ω) (left joined : List (Place × ω)) (woken : List ω) : Prop :=
  ∃ popped stay, r.waiting.Perm (popped ++ (left ++ stay)) ∧ r'.waiting.Perm (joined ++ stay) ∧
    (popped.map (·.2)).Perm woken

theorem Shifts.refl (r : Registry ω) : r.Shifts r [] [] [] :=
  ⟨[], r.waiting, .refl _, .refl _, .refl _⟩

/-- What becomes of the entries of one channel becomes of those of the bus. -/
theorem shifts_put {popped stay : List (Place × ω)} (there : r.channel? h = some c)
    (before : (c.standing h).Perm (popped ++ (left ++ stay)))
    (after : (c'.standing h).Perm (joined ++ stay)) (wakers : (popped.map (·.2)).Perm woken) :
    r.Shifts (r.put h c') left joined woken := by
  obtain ⟨others, old, new⟩ := waiting_set (channel?_eq_some_iff.1 there)
  refine ⟨popped, stay ++ others, old.trans ?_, (new (some c')).trans ?_, wakers⟩
  · rw [← List.append_assoc, ← List.append_assoc, List.append_assoc popped]
    exact before.append_right others
  · rw [← List.append_assoc]
    exact after.append_right others

theorem shifts_exchange {stay : List (Place × ω)} (there : r.channel? h = some c)
    (before : (c.standing h).Perm (left ++ stay)) (after : (c'.standing h).Perm (joined ++ stay)) :
    r.Shifts (r.put h c') left joined [] := by
  have before : (c.standing h).Perm ([] ++ (left ++ stay)) := before
  exact shifts_put there before after (.refl [])

theorem shifts_of_pops (there : r.channel? h = some c) (pops : c.Pops c' woken) :
    r.Shifts (r.put h c') [] [] woken := by
  obtain ⟨popped, standing, wakers⟩ := pops.standing h
  exact shifts_put there standing (.refl _) wakers

theorem shifts_close (r : Registry ω) (h : Handle) :
    r.Shifts (r.close h).state [] [] (r.close h).woken := by
  rw [close]
  cases there : r.channel? h with
  | none => exact .refl r
  | some c =>
    obtain ⟨others, old, new⟩ := waiting_set (channel?_eq_some_iff.1 there)
    exact ⟨c.standing h, others, old, new none, c.standing_close h⟩

theorem shifts_delete (r : Registry ω) : r.Shifts r.delete.state [] [] r.delete.woken := by
  refine ⟨r.waiting, [], by simp, .refl _, ?_⟩
  have each (entries : List (Handle × Channel ω)) :
      ((entries.flatMap fun entry => entry.2.standing entry.1).map (·.2)).Perm
        ((entries.map (·.2)).flatMap (·.close)) := by
    induction entries with
    | nil => exact .refl _
    | cons entry entries ih =>
      rw [List.flatMap_cons, List.map_append, List.map_cons, List.flatMap_cons]
      exact (entry.2.standing_close entry.1).append ih
  have wakers := each r.entries
  rw [map_snd_entries] at wakers
  exact wakers

theorem shifts_openChannel (r : Registry ω) (bound : Nat) :
    r.Shifts (r.openChannel bound).state [] [] [] := by
  have same (waiting : (r.openChannel bound).state.waiting.Perm r.waiting) :
      r.Shifts (r.openChannel bound).state [] [] [] :=
    ⟨[], r.waiting, .refl _, waiting, .refl _⟩
  refine same ?_
  by_cases inside : r.slots.findIdx (·.isNone) < r.slots.length
  · have none : r.slots[r.slots.findIdx (·.isNone)]? = some none := by
      rw [List.getElem?_eq_getElem inside]
      have empty : (r.slots[r.slots.findIdx (·.isNone)]).isNone = true :=
        List.findIdx_getElem (w := inside)
      rw [Option.isNone_iff_eq_none.1 empty]
    obtain ⟨others, old, new⟩ := waiting_set none
    simp only [openChannel, if_pos inside]
    exact (new _).trans old.symm
  · have appended : (r.openChannel bound).state.slots =
        r.slots ++ [some (.fresh ⟨r.nextId⟩ bound)] := by
      simp only [openChannel, if_neg inside]
    rw [waiting, waiting, entries, entries, appended, List.zipIdx_append, List.filterMap_append,
      List.flatMap_append]
    exact .of_eq (List.append_nil _)

/-- The open channels in these slots, by ascending handle from the first one on. -/
def entriesFrom (slots : List (Option (Channel ω))) (first : Handle) : List (Handle × Channel ω) :=
  (slots.zipIdx first).filterMap fun (slot, h) => slot.map (h, ·)

theorem shifts_commitAll (r : Registry ω) (m : Message) (cascade : Bool) :
    r.Shifts (r.commitAll m cascade).state [] [] (r.commitAll m cascade).woken := by
  let standing (slots : List (Option (Channel ω))) (n : Nat) : List (Place × ω) :=
    (entriesFrom slots n).flatMap fun entry => entry.2.standing entry.1
  have each (slots : List (Option (Channel ω))) (n : Nat) : ∃ popped,
      (standing slots n).Perm (popped ++
        standing ((slots.map (·.map (·.commit m cascade))).map (·.map (·.1))) n) ∧
      (popped.map (·.2)).Perm
        ((slots.map (·.map (·.commit m cascade))).flatMap fun slot =>
          (slot.map (·.2)).getD []) := by
    induction slots generalizing n with
    | nil => exact ⟨[], .refl _, .refl _⟩
    | cons slot slots ih =>
      obtain ⟨later, left, wakers⟩ := ih (n + 1)
      cases slot with
      | none => exact ⟨later, left, wakers⟩
      | some c =>
        obtain ⟨popped, left', wakers'⟩ := (c.popsInOrder_commit m cascade).pops.standing n
        refine ⟨popped ++ later, ?_, ?_⟩
        · refine (left'.append left).trans ?_
          rw [List.append_assoc, List.append_assoc]
          exact (List.perm_append_comm_assoc _ _ _).append_left _
        · rw [List.map_append]
          exact wakers'.append wakers
  obtain ⟨popped, left, wakers⟩ := each r.slots 0
  exact ⟨popped, _, left, .refl _, wakers⟩

end Registry

end

end MessageBus
